import QueryCompiler.Dialect.Engine
import QueryCompiler.Proofs.Reading

/-! # Condition trees that are built by hand

A tree of connectives and parentheses may be built in any shape, also in shapes that no filter list leads
to: a connective inside the same connective, one with a single term, or one with none. A connective
without terms has no text, and neither has a tree that holds one; every other tree is written so that it
is read as itself (`Expr.tree_keeps_meaning`).
-/

namespace QueryCompiler
set_option autoImplicit false

/-- `NodeOf node tree`: the tree has this node. What is inside an atom is no node. -/
inductive Expr.NodeOf (node : Expr) : Expr → Prop where
  | root : Expr.NodeOf node node
  | term {connective : Connective} {terms : List Expr} {term : Expr} :
    term ∈ terms → Expr.NodeOf node term → Expr.NodeOf node (.condition connective terms)
  | inner {inner : Expr} : Expr.NodeOf node inner → Expr.NodeOf node (.parenthesized inner)

theorem Expr.NodeOf.eq_of_isAtom {node expr : Expr} (h : Expr.NodeOf node expr)
    (hexpr : expr.isAtom = true) : node = expr := by
  cases h with
  | root => rfl
  | term => cases hexpr
  | inner => cases hexpr

/-- A tree that is not filled has a connective without terms. -/
theorem Expr.isFilled_eq_false_iff {expr : Expr} :
    expr.isFilled = false ↔ ∃ connective, Expr.NodeOf (.condition connective []) expr := by
  induction expr using Expr.condition_induction with
  | atom expr hexpr =>
    rw [Expr.isFilled_of_isAtom hexpr]
    constructor
    · intro h
      cases h
    · rintro ⟨connective, hnode⟩
      rw [← hnode.eq_of_isAtom hexpr] at hexpr
      cases hexpr
  | condition connective terms ih =>
    constructor
    · intro h
      cases terms with
      | nil => exact ⟨connective, .root⟩
      | cons first rest =>
        rw [Expr.isFilled, List.isEmpty_cons, Bool.not_false, Bool.true_and, Expr.listFilled_eq,
          List.all_eq_false] at h
        obtain ⟨term, hterm, hempty⟩ := h
        obtain ⟨connective', hnode⟩ := (ih term hterm).1 (Bool.eq_false_iff.2 hempty)
        exact ⟨connective', .term hterm hnode⟩
    · rintro ⟨connective', hnode⟩
      cases hnode with
      | root => rfl
      | @term _ _ term hterm hbelow =>
        have hempty : term.isFilled = false := (ih term hterm).2 ⟨connective', hbelow⟩
        have hlist : Expr.listFilled terms = false := by
          rw [Expr.listFilled_eq, List.all_eq_false]
          exact ⟨term, hterm, Bool.eq_false_iff.1 hempty⟩
        rw [Expr.isFilled, hlist, Bool.and_false]
  | parenthesized inner ih =>
    rw [Expr.isFilled, ih]
    constructor
    · rintro ⟨connective, hnode⟩
      exact ⟨connective, .inner hnode⟩
    · rintro ⟨connective, hnode⟩
      cases hnode with
      | inner hbelow => exact ⟨connective, hbelow⟩

section Failure

variable {r : Renderer} {context : Context} {atoms : Nat → Sql}

/-- The terms up to the first one that is not filled have a text, so the error is the one of that term. -/
theorem Expr.renderTerms_eq_error {connective : Connective} {terms : List Expr} {error : Error}
    (ih : ∀ term ∈ terms, ∀ start, term.isFilled = false →
      Expr.WrittenFrom r context atoms start term.atoms → term.render r context = .error error)
    (start : Nat) (hempty : Expr.listFilled terms = false)
    (hatoms : Expr.WrittenFrom r context atoms start (Expr.listAtoms terms)) :
    Expr.renderTerms r context connective terms = .error error := by
  induction terms generalizing start with
  | nil => cases hempty
  | cons term terms ihterms =>
    rw [Expr.listAtoms] at hatoms
    rw [List.forall_mem_cons] at ih
    cases hterm : term.isFilled with
    | true =>
      rw [Expr.listFilled, hterm, Bool.true_and] at hempty
      have hsql := term.render_marks start hterm hatoms.left
      have hrest := ihterms ih.2 (start + term.atoms.length) hempty hatoms.right
      rw [Expr.renderTerms, hsql, hrest]
      rfl
    | false =>
      rw [Expr.renderTerms, ih.1 start hterm hatoms.left]
      rfl

/-- A tree that is not filled has no text. -/
theorem Expr.render_eq_error (expr : Expr) (start : Nat) (hempty : expr.isFilled = false)
    (hatoms : Expr.WrittenFrom r context atoms start expr.atoms) :
    expr.render r context = .error (.unexpectedNode .emptyCondition) := by
  induction expr using Expr.condition_induction generalizing start with
  | atom expr hexpr =>
    rw [Expr.isFilled_of_isAtom hexpr] at hempty
    cases hempty
  | condition connective terms ih =>
    by_cases hterms : terms.isEmpty = true
    · rw [Expr.render, if_pos hterms]
    · rw [Expr.isFilled, Bool.eq_false_iff.2 hterms, Bool.not_false, Bool.true_and] at hempty
      rw [Expr.atoms] at hatoms
      rw [Expr.render, if_neg hterms, Expr.renderTerms_eq_error ih start hempty hatoms]
      rfl
  | parenthesized inner ih =>
    rw [Expr.isFilled] at hempty
    rw [Expr.atoms] at hatoms
    rw [Expr.render, ih start hempty hatoms]
    rfl

end Failure

/-- A tree of conditions whose atoms have a text has none itself exactly if one of its connectives has no
terms. Otherwise its text consists of the atoms, each once and in order, with AND, OR and parentheses, and
is read as the value of the tree, whatever the values of the atoms. -/
theorem Expr.tree_keeps_meaning (r : Renderer) (context : Context) (expr : Expr) (sqls : List Sql)
    (hatoms : List.Forall₂ (fun atom sql => atom.render r context = .ok sql) expr.atoms sqls) :
    (∀ error, expr.render r context = .error error ↔
      error = .unexpectedNode .emptyCondition ∧
        ∃ connective, Expr.NodeOf (.condition connective []) expr) ∧
    ((∀ connective, ¬Expr.NodeOf (.condition connective []) expr) →
      ∃ marks, expr.render r context = .ok (Mark.text (sqls.getD · {}) marks) ∧
        marks.filterMap Mark.atom? = List.range sqls.length ∧
        ∀ truth value, Mark.Reads truth marks value ↔ expr.value truth 0 = value) := by
  have hwritten := Expr.writtenFrom_getD hatoms
  have hlength : expr.atoms.length = sqls.length := hatoms.length_eq
  constructor
  · intro error
    rw [← Expr.isFilled_eq_false_iff]
    cases hfilled : expr.isFilled with
    | true =>
      rw [expr.render_marks 0 hfilled hwritten]
      simp
    | false =>
      rw [expr.render_eq_error 0 hfilled hwritten]
      simp [eq_comm]
  · intro hnone
    have hfilled : expr.isFilled = true := by
      rw [← Bool.not_eq_false, Expr.isFilled_eq_false_iff]
      exact not_exists.2 hnone
    refine ⟨expr.marks 0, expr.render_marks 0 hfilled hwritten, ?_, ?_⟩
    · rw [Expr.filterMap_marks, hlength, List.range_eq_range']
    · intro truth value
      have hreads := (Expr.reads_marks truth expr 0 hfilled).1
      exact ⟨hreads.unique, fun h => h ▸ hreads⟩

/-- An AND that holds an OR with an AND inside, an AND, and an OR with one term. Beside it, a tree with an
OR of nothing. -/
theorem Expr.tree_keeps_meaning_nested :
    let tree : Expr := .condition .and
      [.condition .or [.raw ⟨"a", []⟩, .condition .and [.raw ⟨"b", []⟩, .raw ⟨"c", []⟩]],
        .condition .and [.raw ⟨"d", []⟩, .parenthesized (.raw ⟨"e", []⟩)],
        .condition .or [.raw ⟨"f", []⟩]]
    let broken : Expr := .condition .or
      [.raw ⟨"a", []⟩, .parenthesized (.condition .and [.condition .or []])]
    (∃ marks, tree.render ⟨.mysql, fun _ => .ok {}⟩ {} =
        .ok (Mark.text ((["a", "b", "c", "d", "e", "f"].map Sql.ofText).getD · {}) marks) ∧
      marks.filterMap Mark.atom? = List.range 6 ∧
      ∀ truth value, Mark.Reads truth marks value ↔ tree.value truth 0 = value) ∧
    broken.render ⟨.mysql, fun _ => .ok {}⟩ {} = .error (.unexpectedNode .emptyCondition) := by
  intro tree broken
  constructor
  · refine (Expr.tree_keeps_meaning ⟨.mysql, fun _ => .ok {}⟩ {} tree
      (["a", "b", "c", "d", "e", "f"].map Sql.ofText) ?_).2 ?_
    · exact .cons rfl (.cons rfl (.cons rfl (.cons rfl (.cons rfl (.cons rfl .nil)))))
    · intro connective hnode
      exact absurd (Expr.isFilled_eq_false_iff.2 ⟨connective, hnode⟩) (by decide)
  · have hatoms : List.Forall₂
        (fun atom sql => Expr.render ⟨.mysql, fun _ => .ok {}⟩ {} atom = .ok sql)
        broken.atoms [Sql.ofText "a"] := .cons rfl .nil
    refine ((Expr.tree_keeps_meaning _ {} broken _ hatoms).1 _).2 ⟨rfl, .or, ?_⟩
    apply Expr.NodeOf.term (List.mem_cons_of_mem _ List.mem_cons_self)
    exact .inner (.term List.mem_cons_self .root)

end QueryCompiler
