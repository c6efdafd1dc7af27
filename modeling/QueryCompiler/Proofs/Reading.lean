import QueryCompiler.Proofs.Judgement

/-! # Reading conditions

The text of a condition is a row of marks: atoms, the words AND and OR, and parentheses. It is read by
precedence, parentheses first, then AND, then OR, over the three truth values of SQL.

* `Mark.Reads`: the reading of a row of marks, as a grammar with one level for each precedence.
* `Mark.Reads.unique`: a row of marks has at most one reading.
* `Expr.render_marks`, `Expr.reads_marks`: a tree of conditions is written as a row of marks that is
  read as the value of the tree.
-/

namespace QueryCompiler
set_option autoImplicit false

/-! ## Truth values -/

/-- A truth value of SQL. -/
inductive Truth where
  | false
  | unknown
  | true
  deriving DecidableEq

namespace Truth

def and : Truth → Truth → Truth
  | .true, w => w
  | .false, _ => .false
  | .unknown, .false => .false
  | .unknown, _ => .unknown

def or : Truth → Truth → Truth
  | .false, w => w
  | .true, _ => .true
  | .unknown, .true => .true
  | .unknown, _ => .unknown

/-- The AND of a list. -/
def all (values : List Truth) : Truth := values.foldr and .true

/-- The OR of a list. -/
def any (values : List Truth) : Truth := values.foldr or .false

theorem and_assoc (u v w : Truth) : (u.and v).and w = u.and (v.and w) := by
  cases u <;> cases v <;> cases w <;> rfl

theorem or_assoc (u v w : Truth) : (u.or v).or w = u.or (v.or w) := by
  cases u <;> cases v <;> cases w <;> rfl

@[simp] theorem true_and (v : Truth) : Truth.true.and v = v := rfl

@[simp] theorem and_true (v : Truth) : v.and .true = v := by cases v <;> rfl

@[simp] theorem false_or (v : Truth) : Truth.false.or v = v := rfl

@[simp] theorem or_false (v : Truth) : v.or .false = v := by cases v <;> rfl

end Truth

/-- The value of terms under a connective. -/
def Connective.value : Connective → List Truth → Truth
  | .and => Truth.all
  | .or => Truth.any

theorem Connective.value_singleton (connective : Connective) (v : Truth) :
    connective.value [v] = v := by
  cases connective with
  | and => exact Truth.and_true v
  | or => exact Truth.or_false v

/-! ## Marks -/

/-- A piece of the text of a condition. Atoms go by their number. -/
inductive Mark where
  | atom (index : Nat)
  | and
  | or
  | opening
  | closing
  deriving DecidableEq

namespace Mark

def sql (atoms : Nat → Sql) : Mark → Sql
  | .atom index => atoms index
  | .and => " AND "
  | .or => " OR "
  | .opening => "("
  | .closing => ")"

/-- The text of marks, given the text of the atoms. -/
def text (atoms : Nat → Sql) : List Mark → Sql
  | [] => {}
  | mark :: marks => mark.sql atoms ++ text atoms marks

def atom? : Mark → Option Nat
  | .atom index => some index
  | _ => none

/-- Marks in parentheses. -/
def group (marks : List Mark) : List Mark := .opening :: (marks ++ [.closing])

def groupIf (needed : Bool) (marks : List Mark) : List Mark := if needed then group marks else marks

/-- Rows of marks with a separator between them. -/
def join (separator : Mark) : List (List Mark) → List Mark
  | [] => []
  | [marks] => marks
  | marks :: rows => marks ++ separator :: join separator rows

theorem text_append (atoms : Nat → Sql) (a b : List Mark) :
    text atoms (a ++ b) = text atoms a ++ text atoms b := by
  induction a with
  | nil => exact (Sql.empty_append _).symm
  | cons mark marks ih => rw [List.cons_append, text, text, ih, Sql.append_assoc]

theorem text_group (atoms : Nat → Sql) (marks : List Mark) :
    text atoms (group marks) = (text atoms marks).parens := by
  simp only [group, text, text_append, sql, Sql.append_empty, Sql.parens, Sql.append_assoc]

theorem text_groupIf (atoms : Nat → Sql) (needed : Bool) (marks : List Mark) :
    text atoms (groupIf needed marks) = (text atoms marks).parensIf needed := by
  cases needed with
  | true => exact text_group atoms marks
  | false => rfl

end Mark

/-- The word of a connective as a mark. -/
def Connective.mark : Connective → Mark
  | .and => .and
  | .or => .or

theorem Connective.mark_sql (connective : Connective) (atoms : Nat → Sql) :
    connective.mark.sql atoms = Sql.ofText (" " ++ connective.sql ++ " ") := by
  cases connective <;> rfl

theorem Mark.text_join (atoms : Nat → Sql) (connective : Connective) (rows : List (List Mark)) :
    Mark.text atoms (Mark.join connective.mark rows) =
      Sql.join (" " ++ connective.sql ++ " ") (rows.map (Mark.text atoms)) := by
  induction rows with
  | nil => rfl
  | cons marks rows ih =>
    cases rows with
    | nil => rfl
    | cons next rows =>
      show Mark.text atoms (marks ++ connective.mark :: Mark.join connective.mark (next :: rows)) =
        Mark.text atoms marks ++ Sql.ofText (" " ++ connective.sql ++ " ") ++
          Sql.join (" " ++ connective.sql ++ " ") ((next :: rows).map (Mark.text atoms))
      rw [Mark.text_append, Mark.text, ih, connective.mark_sql, Sql.append_assoc]

/-! ## Readings -/

namespace Mark

mutual

/-- Marks that are read as an OR of runs. -/
inductive Reads (truth : Nat → Truth) : List Mark → Truth → Prop where
  | run {marks : List Mark} {v : Truth} : ReadsRun truth marks v → Reads truth marks v
  | or {left right : List Mark} {v w : Truth} :
    Reads truth left v → ReadsRun truth right w → Reads truth (left ++ .or :: right) (v.or w)

/-- Marks that are read as a run: an AND of terms. -/
inductive ReadsRun (truth : Nat → Truth) : List Mark → Truth → Prop where
  | term {marks : List Mark} {v : Truth} : ReadsTerm truth marks v → ReadsRun truth marks v
  | and {left right : List Mark} {v w : Truth} :
    ReadsRun truth left v → ReadsTerm truth right w →
      ReadsRun truth (left ++ .and :: right) (v.and w)

/-- Marks that are read as a term: an atom, or anything in parentheses. -/
inductive ReadsTerm (truth : Nat → Truth) : List Mark → Truth → Prop where
  | atom (index : Nat) : ReadsTerm truth [.atom index] (truth index)
  | group {marks : List Mark} {v : Truth} : Reads truth marks v → ReadsTerm truth (group marks) v

end

variable {truth : Nat → Truth}

/-! ### Uniqueness

A machine reads marks from left to right. For each open parenthesis it keeps the OR of the runs that
have ended and the AND of the run that has not. -/

/-- The OR of the runs that have ended, and the AND of the last run so far. -/
abbrev Level := Truth × Truth

def step (truth : Nat → Truth) : List Level → Mark → List Level
  | (ended, run) :: levels, .atom index => (ended, run.and (truth index)) :: levels
  | levels, .and => levels
  | (ended, run) :: levels, .or => (ended.or run, .true) :: levels
  | levels, .opening => (.false, .true) :: levels
  | (ended, run) :: (ended', run') :: levels, .closing =>
    (ended', run'.and (ended.or run)) :: levels
  | levels, _ => levels

def machine (truth : Nat → Truth) (levels : List Level) (marks : List Mark) : List Level :=
  marks.foldl (step truth) levels

theorem machine_append (levels : List Level) (a b : List Mark) :
    machine truth levels (a ++ b) = machine truth (machine truth levels a) b := List.foldl_append

mutual

theorem Reads.machine_eq {marks : List Mark} {v : Truth} :
    Reads truth marks v → ∀ ended levels, ∃ ended' run,
      machine truth ((ended, .true) :: levels) marks = (ended', run) :: levels ∧
        ended'.or run = ended.or v
  | .run hrun, ended, levels => by
    refine ⟨ended, v, ?_, rfl⟩
    rw [hrun.machine_eq, Truth.true_and]
  | .or (v := v) (w := w) hleft hright, ended, levels => by
    obtain ⟨ended', run, hmachine, hvalue⟩ := hleft.machine_eq ended levels
    refine ⟨ended'.or run, w, ?_, ?_⟩
    · rw [machine_append, hmachine]
      exact hright.machine_eq _ .true levels
    · rw [hvalue, Truth.or_assoc]

theorem ReadsRun.machine_eq {marks : List Mark} {v : Truth} :
    ReadsRun truth marks v → ∀ ended run levels,
      machine truth ((ended, run) :: levels) marks = (ended, run.and v) :: levels
  | .term hterm, ended, run, levels => hterm.machine_eq ended run levels
  | .and hleft hright, ended, run, levels => by
    rw [machine_append, hleft.machine_eq, ← Truth.and_assoc]
    exact hright.machine_eq ended _ levels

theorem ReadsTerm.machine_eq {marks : List Mark} {v : Truth} :
    ReadsTerm truth marks v → ∀ ended run levels,
      machine truth ((ended, run) :: levels) marks = (ended, run.and v) :: levels
  | .atom index, ended, run, levels => rfl
  | @ReadsTerm.group _ marks _ hmarks, ended, run, levels => by
    obtain ⟨ended', run', hmachine, hvalue⟩ := hmarks.machine_eq .false ((ended, run) :: levels)
    have hopen : machine truth ((ended, run) :: levels) (group marks) =
        machine truth (machine truth ((.false, .true) :: (ended, run) :: levels) marks)
          [.closing] := machine_append _ marks [.closing]
    rw [hopen, hmachine, ← Truth.false_or v, ← hvalue]
    rfl

end

/-- A row of marks has at most one reading. -/
theorem Reads.unique {marks : List Mark} {v w : Truth} (hv : Reads truth marks v)
    (hw : Reads truth marks w) : v = w := by
  obtain ⟨ended, run, hmachine, hvalue⟩ := hv.machine_eq .false []
  obtain ⟨ended', run', hmachine', hvalue'⟩ := hw.machine_eq .false []
  rw [hmachine] at hmachine'
  cases hmachine'
  rw [Truth.false_or] at hvalue hvalue'
  exact hvalue.symm.trans hvalue'

/-! ### Longer rows -/

theorem ReadsRun.append {left : List Mark} {v : Truth} (hleft : ReadsRun truth left v)
    {right : List Mark} {w : Truth} :
    ReadsRun truth right w → ReadsRun truth (left ++ .and :: right) (v.and w)
  | .term hterm => .and hleft hterm
  | .and hinner hlast => by
    have h := ReadsRun.and (hleft.append hinner) hlast
    rwa [List.append_assoc, List.cons_append, Truth.and_assoc] at h

theorem Reads.append {left : List Mark} {v : Truth} (hleft : Reads truth left v)
    {right : List Mark} {w : Truth} :
    Reads truth right w → Reads truth (left ++ .or :: right) (v.or w)
  | .run hrun => .or hleft hrun
  | .or hinner hlast => by
    have h := Reads.or (hleft.append hinner) hlast
    rwa [List.append_assoc, List.cons_append, Truth.or_assoc] at h

theorem ReadsRun.join {rows : List (List Mark)} {values : List Truth}
    (h : List.Forall₂ (ReadsRun truth) rows values) (hne : rows ≠ []) :
    ReadsRun truth (join .and rows) (Truth.all values) := by
  induction h with
  | nil => exact (hne rfl).elim
  | @cons marks v rows values hhead htail ih =>
    cases htail with
    | nil =>
      show ReadsRun truth marks (v.and .true)
      rwa [Truth.and_true]
    | cons hnext hrest => exact hhead.append (ih (List.cons_ne_nil _ _))

theorem Reads.join {rows : List (List Mark)} {values : List Truth}
    (h : List.Forall₂ (Reads truth) rows values) (hne : rows ≠ []) :
    Reads truth (join .or rows) (Truth.any values) := by
  induction h with
  | nil => exact (hne rfl).elim
  | @cons marks v rows values hhead htail ih =>
    cases htail with
    | nil =>
      show Reads truth marks (v.or .false)
      rwa [Truth.or_false]
    | cons hnext hrest => exact hhead.append (ih (List.cons_ne_nil _ _))

end Mark

/-! ## Trees of conditions -/

/-- Whether an expression is read as one atom. -/
def Expr.isAtom : Expr → Bool
  | .condition _ _ => false
  | .parenthesized _ => false
  | _ => true

mutual

/-- The atoms of a tree of conditions, from left to right. -/
def Expr.atoms : Expr → List Expr
  | .condition _ terms => Expr.listAtoms terms
  | .parenthesized inner => inner.atoms
  | atom => [atom]

def Expr.listAtoms : List Expr → List Expr
  | [] => []
  | term :: terms => term.atoms ++ Expr.listAtoms terms

end

mutual

/-- Whether every connective of a tree has terms. -/
def Expr.isFilled : Expr → Bool
  | .condition _ terms => !terms.isEmpty && Expr.listFilled terms
  | .parenthesized inner => inner.isFilled
  | _ => true

def Expr.listFilled : List Expr → Bool
  | [] => true
  | term :: terms => term.isFilled && Expr.listFilled terms

end

mutual

/-- The value of a tree of conditions whose atoms are numbered from `start` on. -/
def Expr.value (truth : Nat → Truth) (start : Nat) : Expr → Truth
  | .condition connective terms => connective.value (Expr.listValues truth start terms)
  | .parenthesized inner => inner.value truth start
  | _ => truth start

def Expr.listValues (truth : Nat → Truth) (start : Nat) : List Expr → List Truth
  | [] => []
  | term :: terms =>
    term.value truth start :: Expr.listValues truth (start + term.atoms.length) terms

end

mutual

/-- The marks of a tree of conditions whose atoms are numbered from `start` on. -/
def Expr.marks (start : Nat) : Expr → List Mark
  | .condition connective terms => Mark.join connective.mark (Expr.termMarks connective start terms)
  | .parenthesized inner => Mark.group (inner.marks start)
  | _ => [.atom start]

def Expr.termMarks (connective : Connective) (start : Nat) : List Expr → List (List Mark)
  | [] => []
  | term :: terms =>
    Mark.groupIf (connective = .and && term.isOr) (term.marks start) ::
      Expr.termMarks connective (start + term.atoms.length) terms

end

theorem Expr.listAtoms_eq (exprs : List Expr) : Expr.listAtoms exprs = exprs.flatMap Expr.atoms := by
  induction exprs with
  | nil => rfl
  | cons expr exprs ih => rw [Expr.listAtoms, List.flatMap_cons, ih]

theorem Expr.listFilled_eq (exprs : List Expr) : Expr.listFilled exprs = exprs.all Expr.isFilled := by
  induction exprs with
  | nil => rfl
  | cons expr exprs ih => rw [Expr.listFilled, List.all_cons, ih]

theorem Expr.atoms_of_isAtom {expr : Expr} (h : expr.isAtom = true) : expr.atoms = [expr] := by
  cases expr <;> first | rfl | cases h

theorem Expr.value_of_isAtom {expr : Expr} (h : expr.isAtom = true) (truth : Nat → Truth)
    (start : Nat) : expr.value truth start = truth start := by
  cases expr <;> first | rfl | cases h

theorem Expr.isFilled_of_isAtom {expr : Expr} (h : expr.isAtom = true) :
    expr.isFilled = true := by
  cases expr <;> first | rfl | cases h

theorem Expr.marks_of_isAtom {expr : Expr} (h : expr.isAtom = true) (start : Nat) :
    expr.marks start = [.atom start] := by
  cases expr <;> first | rfl | cases h

mutual

/-- Induction over the connectives and parentheses of a condition. -/
theorem Expr.condition_induction {motive : Expr → Prop}
    (atom : ∀ expr : Expr, expr.isAtom = true → motive expr)
    (condition : ∀ connective terms, (∀ term ∈ terms, motive term) →
      motive (.condition connective terms))
    (parenthesized : ∀ inner, motive inner → motive (.parenthesized inner)) :
    ∀ expr : Expr, motive expr
  | .condition connective terms =>
    condition connective terms (Expr.list_induction atom condition parenthesized terms)
  | .parenthesized inner =>
    parenthesized inner (Expr.condition_induction atom condition parenthesized inner)
  | .path _ | .json .. | .bound .. | .raw _ | .nested _ | .call .. | .aggregate .. | .compare ..
  | .between .. | .inList .. | .inNested .. | .isNull .. | .existsIn .. | .like .. => atom _ rfl

theorem Expr.list_induction {motive : Expr → Prop}
    (atom : ∀ expr : Expr, expr.isAtom = true → motive expr)
    (condition : ∀ connective terms, (∀ term ∈ terms, motive term) →
      motive (.condition connective terms))
    (parenthesized : ∀ inner, motive inner → motive (.parenthesized inner)) :
    ∀ terms : List Expr, ∀ term ∈ terms, motive term
  | [] => fun _ h => nomatch h
  | term :: terms =>
    List.forall_mem_cons.2 ⟨Expr.condition_induction atom condition parenthesized term,
      Expr.list_induction atom condition parenthesized terms⟩

end

/-- A condition whose connectives all have terms has an atom. -/
theorem Expr.atoms_ne_nil {expr : Expr} (h : expr.isFilled = true) : expr.atoms ≠ [] := by
  induction expr using Expr.condition_induction with
  | atom expr hexpr =>
    rw [Expr.atoms_of_isAtom hexpr]
    exact List.cons_ne_nil _ _
  | condition connective terms ih =>
    cases terms with
    | nil => cases h
    | cons term terms =>
      rw [Expr.isFilled, Expr.listFilled, List.isEmpty_cons, Bool.not_false, Bool.true_and,
        Bool.and_eq_true] at h
      rw [Expr.atoms, Expr.listAtoms]
      exact List.append_ne_nil_of_left_ne_nil (ih term List.mem_cons_self h.1) _
  | parenthesized inner ih => exact ih h

/-! ### What is written -/

section Written

variable {r : Renderer} {context : Context} {atoms : Nat → Sql}

/-- Expressions are written as the atoms from `start` on. -/
def Expr.WrittenFrom (r : Renderer) (context : Context) (atoms : Nat → Sql) (start : Nat)
    (exprs : List Expr) : Prop :=
  ∀ (index : Nat) (expr : Expr), exprs[index]? = some expr →
    expr.render r context = .ok (atoms (start + index))

theorem Expr.writtenFrom_getD {exprs : List Expr} {sqls : List Sql}
    (h : List.Forall₂ (fun expr sql => expr.render r context = .ok sql) exprs sqls) :
    Expr.WrittenFrom r context (sqls.getD · {}) 0 exprs := by
  intro index expr hexpr
  rw [Nat.zero_add]
  induction h generalizing index with
  | nil => cases hexpr
  | cons hhead _ ih =>
    cases index with
    | zero =>
      cases hexpr
      exact hhead
    | succ index => exact ih index hexpr

theorem Expr.WrittenFrom.left {start : Nat} {a b : List Expr}
    (h : Expr.WrittenFrom r context atoms start (a ++ b)) :
    Expr.WrittenFrom r context atoms start a := by
  intro index expr hexpr
  have hlt := (List.getElem?_eq_some_iff.1 hexpr).1
  exact h index expr (by rwa [List.getElem?_append_left hlt])

theorem Expr.WrittenFrom.right {start : Nat} {a b : List Expr}
    (h : Expr.WrittenFrom r context atoms start (a ++ b)) :
    Expr.WrittenFrom r context atoms (start + a.length) b := by
  intro index expr hexpr
  rw [Nat.add_assoc]
  refine h (a.length + index) expr ?_
  rwa [List.getElem?_append_right (Nat.le_add_right _ _), Nat.add_sub_cancel_left]

theorem Expr.renderTerms_marks {connective : Connective} {terms : List Expr}
    (ih : ∀ term ∈ terms, ∀ start, term.isFilled = true →
      Expr.WrittenFrom r context atoms start term.atoms →
        term.render r context = .ok (Mark.text atoms (term.marks start)))
    (start : Nat) (hfilled : Expr.listFilled terms = true)
    (hatoms : Expr.WrittenFrom r context atoms start (Expr.listAtoms terms)) :
    Expr.renderTerms r context connective terms =
      .ok ((Expr.termMarks connective start terms).map (Mark.text atoms)) := by
  induction terms generalizing start with
  | nil => rfl
  | cons term terms ihterms =>
    rw [Expr.listFilled, Bool.and_eq_true] at hfilled
    rw [Expr.listAtoms] at hatoms
    rw [List.forall_mem_cons] at ih
    have hterm := ih.1 start hfilled.1 hatoms.left
    have hterms := ihterms ih.2 (start + term.atoms.length) hfilled.2 hatoms.right
    rw [Expr.renderTerms, hterm, hterms, Expr.termMarks, List.map_cons, Mark.text_groupIf]
    rfl

/-- A tree of conditions is written as its marks. -/
theorem Expr.render_marks (expr : Expr) (start : Nat) (hfilled : expr.isFilled = true)
    (hatoms : Expr.WrittenFrom r context atoms start expr.atoms) :
    expr.render r context = .ok (Mark.text atoms (expr.marks start)) := by
  induction expr using Expr.condition_induction generalizing start with
  | atom expr hexpr =>
    rw [Expr.atoms_of_isAtom hexpr] at hatoms
    rw [hatoms 0 expr rfl, Expr.marks_of_isAtom hexpr]
    exact congrArg Except.ok (Sql.append_empty _).symm
  | condition connective terms ih =>
    rw [Expr.isFilled, Bool.and_eq_true, Bool.not_eq_true'] at hfilled
    rw [Expr.atoms] at hatoms
    rw [Expr.render, hfilled.1, Expr.renderTerms_marks ih start hfilled.2 hatoms, Expr.marks,
      Mark.text_join]
    rfl
  | parenthesized inner ih =>
    rw [Expr.isFilled] at hfilled
    rw [Expr.atoms] at hatoms
    rw [Expr.render, ih start hfilled hatoms, Expr.marks, Mark.text_group]
    rfl

end Written

/-! ### What is read -/

theorem Mark.filterMap_group (marks : List Mark) :
    (Mark.group marks).filterMap Mark.atom? = marks.filterMap Mark.atom? := by
  show (marks ++ [Mark.closing]).filterMap Mark.atom? = _
  rw [List.filterMap_append]
  exact List.append_nil _

theorem Mark.filterMap_groupIf (needed : Bool) (marks : List Mark) :
    (Mark.groupIf needed marks).filterMap Mark.atom? = marks.filterMap Mark.atom? := by
  cases needed with
  | true => exact Mark.filterMap_group marks
  | false => rfl

theorem Mark.filterMap_join (connective : Connective) (rows : List (List Mark)) :
    (Mark.join connective.mark rows).filterMap Mark.atom? =
      rows.flatMap (List.filterMap Mark.atom?) := by
  have hmark : connective.mark.atom? = none := by cases connective <;> rfl
  induction rows with
  | nil => rfl
  | cons marks rows ih =>
    cases rows with
    | nil => simp [Mark.join]
    | cons next rows =>
      show (marks ++ connective.mark :: Mark.join connective.mark (next :: rows)).filterMap
        Mark.atom? = _
      rw [List.filterMap_append, List.filterMap_cons_none hmark, ih]
      rfl

/-- The atoms of a tree occur among its marks in order, each once. -/
theorem Expr.filterMap_marks (expr : Expr) (start : Nat) :
    (expr.marks start).filterMap Mark.atom? = List.range' start expr.atoms.length := by
  induction expr using Expr.condition_induction generalizing start with
  | atom expr hexpr =>
    rw [Expr.marks_of_isAtom hexpr, Expr.atoms_of_isAtom hexpr]
    rfl
  | condition connective terms ih =>
    rw [Expr.marks, Expr.atoms, Mark.filterMap_join]
    induction terms generalizing start with
    | nil => rfl
    | cons term terms ihterms =>
      rw [List.forall_mem_cons] at ih
      rw [Expr.termMarks, Expr.listAtoms, List.flatMap_cons, Mark.filterMap_groupIf, ih.1,
        ihterms ih.2, List.length_append, List.range'_append_1]
  | parenthesized inner ih =>
    rw [Expr.marks, Expr.atoms, Mark.filterMap_group, ih]

/-- What is read of the terms of an AND, where an OR is in parentheses. -/
theorem Expr.termMarks_and_reads {truth : Nat → Truth} {terms : List Expr}
    (ih : ∀ term ∈ terms, ∀ start, term.isFilled = true →
      Mark.Reads truth (term.marks start) (term.value truth start) ∧
        (term.isOr = false → Mark.ReadsRun truth (term.marks start) (term.value truth start)))
    (start : Nat) (hfilled : Expr.listFilled terms = true) :
    List.Forall₂ (Mark.ReadsRun truth) (Expr.termMarks .and start terms)
      (Expr.listValues truth start terms) := by
  induction terms generalizing start with
  | nil => exact .nil
  | cons term terms ihterms =>
    rw [Expr.listFilled, Bool.and_eq_true] at hfilled
    rw [List.forall_mem_cons] at ih
    refine .cons ?_ (ihterms ih.2 _ hfilled.2)
    obtain ⟨hreads, hrun⟩ := ih.1 start hfilled.1
    cases hor : term.isOr with
    | true => exact .term (.group hreads)
    | false => exact hrun hor

theorem Expr.termMarks_or_reads {truth : Nat → Truth} {terms : List Expr}
    (ih : ∀ term ∈ terms, ∀ start, term.isFilled = true →
      Mark.Reads truth (term.marks start) (term.value truth start))
    (start : Nat) (hfilled : Expr.listFilled terms = true) :
    List.Forall₂ (Mark.Reads truth) (Expr.termMarks .or start terms)
      (Expr.listValues truth start terms) := by
  induction terms generalizing start with
  | nil => exact .nil
  | cons term terms ihterms =>
    rw [Expr.listFilled, Bool.and_eq_true] at hfilled
    rw [List.forall_mem_cons] at ih
    exact .cons (ih.1 start hfilled.1) (ihterms ih.2 _ hfilled.2)

theorem Expr.termMarks_ne_nil {connective : Connective} {start : Nat} {terms : List Expr}
    (h : terms.isEmpty = false) : Expr.termMarks connective start terms ≠ [] := by
  cases terms with
  | nil => cases h
  | cons term terms => exact List.cons_ne_nil _ _

/-- A tree of conditions is read as its value, and as one run unless it is an OR. -/
theorem Expr.reads_marks (truth : Nat → Truth) (expr : Expr) (start : Nat)
    (hfilled : expr.isFilled = true) :
    Mark.Reads truth (expr.marks start) (expr.value truth start) ∧
      (expr.isOr = false → Mark.ReadsRun truth (expr.marks start) (expr.value truth start)) := by
  induction expr using Expr.condition_induction generalizing start with
  | atom expr hexpr =>
    rw [Expr.marks_of_isAtom hexpr, Expr.value_of_isAtom hexpr]
    have hrun : Mark.ReadsRun truth [.atom start] (truth start) := .term (.atom start)
    exact ⟨.run hrun, fun _ => hrun⟩
  | condition connective terms ih =>
    rw [Expr.isFilled, Bool.and_eq_true, Bool.not_eq_true'] at hfilled
    have hne : Expr.termMarks connective start terms ≠ [] := Expr.termMarks_ne_nil hfilled.1
    rw [Expr.marks, Expr.value]
    cases connective with
    | and =>
      have hrun := Mark.ReadsRun.join (Expr.termMarks_and_reads ih start hfilled.2) hne
      exact ⟨.run hrun, fun _ => hrun⟩
    | or =>
      have hreads := Expr.termMarks_or_reads (fun term hterm start h => (ih term hterm start h).1)
        start hfilled.2
      exact ⟨.join hreads hne, fun h => nomatch h⟩
  | parenthesized inner ih =>
    rw [Expr.isFilled] at hfilled
    have hrun := Mark.ReadsRun.term (.group (ih start hfilled).1)
    rw [Expr.marks, Expr.value]
    exact ⟨.run hrun, fun _ => hrun⟩

end QueryCompiler
