import Mathlib.Data.List.SplitBy
import QueryCompiler.Proofs.PlanLeaves
import QueryCompiler.Proofs.Reading

/-! # The meaning of filter lists

A filter list has a value in three-valued logic: groups without a predicate are dropped, the list is
cut in front of each OR, and the value is the OR of the ANDs of the pieces. The condition of the list
has the same value (`Filter.terms_lowers`), and so has its text (`filters_keep_meaning`).
-/

namespace QueryCompiler
set_option autoImplicit false

/-! ## Values of filter lists -/

def Predicate.isGroup : Predicate → Bool
  | .group _ => true
  | _ => false

mutual

/-- The predicates of a predicate at any depth, from left to right. -/
def Predicate.atoms : Predicate → List Predicate
  | .group filters => Filter.atoms filters
  | predicate => [predicate]

def Filter.atoms : List Filter → List Predicate
  | [] => []
  | ⟨_, predicate⟩ :: filters => predicate.atoms ++ Filter.atoms filters

end

/-- Whether a member stands in the same run as the one before it: an OR starts a new run. -/
def continuesRun {α : Type} (_ next : Connective × α) : Bool := next.1 = .and

/-- The OR over the runs of a list of the AND over the run. A list without members has no value. -/
def Truth.ofRuns (members : List (Connective × Truth)) : Option Truth :=
  if members.isEmpty then none
  else some (Truth.any ((members.splitBy continuesRun).map fun run => Truth.all (run.map (·.2))))

mutual

/-- The value of a predicate whose atoms are numbered from `start` on. A group without a predicate
has none. -/
def Predicate.value (truth : Nat → Truth) (start : Nat) : Predicate → Option Truth
  | .group filters => Truth.ofRuns (Filter.values truth start filters)
  | _ => some (truth start)

/-- The values of the filters that have one, each with its connective. -/
def Filter.values (truth : Nat → Truth) (start : Nat) : List Filter → List (Connective × Truth)
  | [] => []
  | ⟨connective, predicate⟩ :: filters =>
    (predicate.value truth start).toList.map (connective, ·) ++
      Filter.values truth (start + predicate.atoms.length) filters

end

/-- The value of a filter list whose atoms have the given values in order. -/
def Filter.value (truth : Nat → Truth) (filters : List Filter) : Option Truth :=
  Truth.ofRuns (Filter.values truth 0 filters)

mutual

/-- Induction over the groups of a predicate. -/
theorem Predicate.group_induction {motive : Predicate → Prop}
    (atom : ∀ predicate : Predicate, predicate.isGroup = false → motive predicate)
    (group : ∀ filters : List Filter, (∀ filter ∈ filters, motive filter.predicate) →
      motive (.group filters)) :
    ∀ predicate : Predicate, motive predicate
  | .group filters => group filters (Filter.group_induction atom group filters)
  | .compare .. | .isIn .. | .inSubquery .. | .isNull .. | .between .. | .existsIn .. | .raw _
  | .datePart .. | .jsonLength .. | .like .. => atom _ rfl

theorem Filter.group_induction {motive : Predicate → Prop}
    (atom : ∀ predicate : Predicate, predicate.isGroup = false → motive predicate)
    (group : ∀ filters : List Filter, (∀ filter ∈ filters, motive filter.predicate) →
      motive (.group filters)) :
    ∀ filters : List Filter, ∀ filter ∈ filters, motive filter.predicate
  | [] => fun _ h => nomatch h
  | ⟨_, predicate⟩ :: filters =>
    List.forall_mem_cons.2 ⟨Predicate.group_induction atom group predicate,
      Filter.group_induction atom group filters⟩

end

theorem Predicate.atoms_of_not_isGroup {predicate : Predicate} (h : predicate.isGroup = false) :
    predicate.atoms = [predicate] := by
  cases predicate <;> first | rfl | cases h

theorem Predicate.value_of_not_isGroup {predicate : Predicate} (h : predicate.isGroup = false)
    (truth : Nat → Truth) (start : Nat) : predicate.value truth start = some (truth start) := by
  cases predicate <;> first | rfl | cases h

/-! ## Runs -/

theorem splitBy_append_run {α : Type} (terms : List (Connective × α)) :
    ∀ run : List (Connective × α), run ≠ [] → run.IsChain (fun a b => continuesRun a b) →
      ((run ++ terms).splitBy continuesRun).map (·.map (·.2)) =
        (run.map (·.2) ++ (continueRun terms).1) :: (continueRun terms).2 := by
  induction terms with
  | nil =>
    intro run hne hchain
    rw [List.append_nil, List.splitBy_of_isChain hne hchain]
    simp [continueRun]
  | cons term terms ih =>
    intro run hne hchain
    obtain ⟨connective, a⟩ := term
    cases connective with
    | and =>
      have hrun : (run ++ [(Connective.and, a)]).IsChain fun a b => continuesRun a b := by
        rw [List.isChain_append]
        exact ⟨hchain, .singleton _, by simp [continuesRun]⟩
      have h := ih (run ++ [(.and, a)]) (by simp) hrun
      simpa [continueRun] using h
    | or =>
      have h := ih [(.or, a)] (by simp) (.singleton _)
      rw [List.splitBy_append_cons terms (by simp [continuesRun]),
        List.splitBy_of_isChain hne hchain, List.map_append]
      simpa [continueRun] using h

/-- The runs of a list are the pieces between its ORs. -/
theorem runs_eq_splitBy {α : Type} (terms : List (Connective × α)) :
    runs terms = (terms.splitBy continuesRun).map (·.map (·.2)) := by
  cases terms with
  | nil => rfl
  | cons term terms =>
    exact (splitBy_append_run terms [term] (by simp) (.singleton _)).symm

theorem Truth.ofRuns_eq (members : List (Connective × Truth)) :
    Truth.ofRuns members =
      if members.isEmpty then none else some (Truth.any ((runs members).map Truth.all)) := by
  rw [Truth.ofRuns, runs_eq_splitBy, List.map_map]
  rfl

/-! ## Conditions of terms -/

/-- The values of the members of runs whose atoms are numbered from `start` on. -/
def Expr.runValues (truth : Nat → Truth) (start : Nat) : List (List Expr) → List (List Truth)
  | [] => []
  | run :: runs =>
    Expr.listValues truth start run ::
      Expr.runValues truth (start + (Expr.listAtoms run).length) runs

theorem Expr.atoms_joined (connective : Connective) (exprs : List Expr) :
    (Expr.joined connective exprs).atoms = Expr.listAtoms exprs := by
  match exprs with
  | [] => rfl
  | [expr] => simp only [Expr.joined, Expr.listAtoms, List.append_nil]
  | _ :: _ :: _ => rfl

theorem Expr.value_joined (connective : Connective) (exprs : List Expr) (truth : Nat → Truth)
    (start : Nat) : (Expr.joined connective exprs).value truth start =
      connective.value (Expr.listValues truth start exprs) := by
  match exprs with
  | [] => rfl
  | [expr] => exact (connective.value_singleton _).symm
  | _ :: _ :: _ => rfl

theorem Expr.isFilled_joined (connective : Connective) {exprs : List Expr} (hne : exprs ≠ [])
    (h : Expr.listFilled exprs = true) : (Expr.joined connective exprs).isFilled = true := by
  match exprs with
  | [] => exact (hne rfl).elim
  | [expr] =>
    rw [Expr.listFilled, Expr.listFilled, Bool.and_true] at h
    exact h
  | _ :: _ :: _ => exact h

theorem Expr.listAtoms_map_joined (runs : List (List Expr)) :
    Expr.listAtoms (runs.map (.joined .and)) = Expr.listAtoms runs.flatten := by
  simp only [Expr.listAtoms_eq, List.flatMap_map, Expr.atoms_joined]
  rw [← List.flatMap_id (L := runs), List.flatMap_assoc]
  rfl

theorem Expr.listFilled_map_joined {runs : List (List Expr)} (hne : [] ∉ runs)
    (h : Expr.listFilled runs.flatten = true) :
    Expr.listFilled (runs.map (.joined .and)) = true := by
  simp only [Expr.listFilled_eq, List.all_map, List.all_flatten, List.all_eq_true,
    Function.comp_apply] at h ⊢
  intro run hrun
  refine Expr.isFilled_joined .and (fun hnil => hne (hnil ▸ hrun)) ?_
  rw [Expr.listFilled_eq, List.all_eq_true]
  exact h run hrun

theorem Expr.listValues_map_joined (truth : Nat → Truth) (start : Nat) (runs : List (List Expr)) :
    Expr.listValues truth start (runs.map (.joined .and)) =
      (Expr.runValues truth start runs).map Truth.all := by
  induction runs generalizing start with
  | nil => rfl
  | cons run runs ih =>
    rw [List.map_cons, Expr.listValues, ih, Expr.value_joined, Expr.atoms_joined, Expr.runValues,
      List.map_cons]
    rfl

/-- Terms with their values in their place. -/
def Expr.termValues (truth : Nat → Truth) (start : Nat) (terms : List (Connective × Expr)) :
    List (Connective × Truth) :=
  (terms.map (·.1)).zip (Expr.listValues truth start (terms.map (·.2)))

theorem Expr.termValues_cons (truth : Nat → Truth) (start : Nat) (connective : Connective)
    (expr : Expr) (terms : List (Connective × Expr)) :
    Expr.termValues truth start ((connective, expr) :: terms) =
      (connective, expr.value truth start) ::
        Expr.termValues truth (start + expr.atoms.length) terms := rfl

theorem Expr.continueRun_termValues (truth : Nat → Truth) (start : Nat)
    (terms : List (Connective × Expr)) :
    continueRun (Expr.termValues truth start terms) =
      (Expr.listValues truth start (continueRun terms).1,
        Expr.runValues truth (start + (Expr.listAtoms (continueRun terms).1).length)
          (continueRun terms).2) := by
  induction terms generalizing start with
  | nil => rfl
  | cons term terms ih =>
    obtain ⟨connective, expr⟩ := term
    cases connective with
    | and =>
      rw [Expr.termValues_cons, continueRun, ih, continueRun, Expr.listValues, Expr.listAtoms,
        List.length_append, Nat.add_assoc]
    | or =>
      rw [Expr.termValues_cons, continueRun, ih, Nat.add_assoc, ← List.length_append]
      rfl

theorem Expr.runs_termValues (truth : Nat → Truth) (start : Nat) (terms : List (Connective × Expr)) :
    runs (Expr.termValues truth start terms) = Expr.runValues truth start (runs terms) := by
  cases terms with
  | nil => rfl
  | cons term terms =>
    obtain ⟨connective, expr⟩ := term
    rw [Expr.termValues_cons, runs, Expr.continueRun_termValues, runs, Expr.runValues,
      Expr.listValues, Expr.listAtoms, List.length_append, Nat.add_assoc]

/-- The condition of terms has their atoms. -/
theorem Expr.listAtoms_ofTerms (terms : List (Connective × Expr)) :
    Expr.listAtoms (Expr.ofTerms terms).toList = Expr.listAtoms (terms.map (·.2)) := by
  rw [← runs_flatten]
  unfold Expr.ofTerms
  split
  · next h => rw [h]; rfl
  · rw [Option.toList_some, Expr.listAtoms, Expr.listAtoms, List.append_nil, Expr.atoms_joined,
      Expr.listAtoms_map_joined]

theorem nil_notMem_runs {α : Type} (terms : List (Connective × α)) : [] ∉ runs terms := by
  rw [runs_eq_splitBy]
  intro h
  obtain ⟨run, hrun, hnil⟩ := List.mem_map.1 h
  rw [List.map_eq_nil_iff] at hnil
  exact List.nil_notMem_splitBy _ _ (hnil ▸ hrun)

theorem Expr.listFilled_ofTerms {terms : List (Connective × Expr)}
    (h : Expr.listFilled (terms.map (·.2)) = true) :
    Expr.listFilled (Expr.ofTerms terms).toList = true := by
  rw [← runs_flatten] at h
  unfold Expr.ofTerms
  split
  · rfl
  · next hne =>
    rw [Option.toList_some, Expr.listFilled, Expr.listFilled, Bool.and_true]
    have hfilled := Expr.listFilled_map_joined (nil_notMem_runs terms) h
    exact Expr.isFilled_joined .or (fun hnil => hne (List.map_eq_nil_iff.1 hnil)) hfilled

/-- The condition of terms has the value of their runs. -/
theorem Expr.value_ofTerms (truth : Nat → Truth) (start : Nat) (terms : List (Connective × Expr)) :
    (Expr.ofTerms terms).map (Expr.value truth start) =
      Truth.ofRuns (Expr.termValues truth start terms) := by
  rw [Truth.ofRuns_eq, Expr.runs_termValues]
  cases terms with
  | nil => rfl
  | cons term terms =>
    obtain ⟨connective, expr⟩ := term
    show some ((Expr.joined .or _).value truth start) = some _
    rw [Expr.value_joined, Expr.listValues_map_joined]
    rfl

/-! ## Conditions of filters -/

/-- What the expression of a predicate keeps of it: the atoms and the value. -/
structure Predicate.Lowers (tablePrefix : String) (purpose : Purpose) (predicate : Predicate)
    (expr : Option Expr) : Prop where
  atoms : List.Forall₂ (fun atom expr => Predicate.expr tablePrefix purpose atom = .ok (some expr))
    predicate.atoms (Expr.listAtoms expr.toList)
  filled : Expr.listFilled expr.toList = true
  value (truth : Nat → Truth) (start : Nat) :
    predicate.value truth start = expr.map (Expr.value truth start)

/-- What the terms of filters keep of them. -/
structure Filter.Lowers (tablePrefix : String) (purpose : Purpose) (filters : List Filter)
    (terms : List (Connective × Expr)) : Prop where
  atoms : List.Forall₂ (fun atom expr => Predicate.expr tablePrefix purpose atom = .ok (some expr))
    (Filter.atoms filters) (Expr.listAtoms (terms.map (·.2)))
  filled : Expr.listFilled (terms.map (·.2)) = true
  values (truth : Nat → Truth) (start : Nat) :
    Filter.values truth start filters = Expr.termValues truth start terms

section Lowering

variable {tablePrefix : String} {purpose : Purpose}

/-- A predicate that is no group is lowered to an atom. -/
theorem Predicate.expr_isAtom {predicate : Predicate} (h : predicate.isGroup = false) :
    Ensures (predicate.expr tablePrefix purpose) fun expr =>
      ∃ atom, expr = some atom ∧ atom.isAtom = true := by
  have hcomparison : ∀ left comparison operand,
      Ensures (Expr.ofComparison tablePrefix purpose left comparison operand)
        fun expr => expr.isAtom = true := by
    intro left comparison operand
    unfold Expr.ofComparison
    split
    · exact .ok rfl
    · exact .ok rfl
    · exact .bind_any fun _ _ => .ok rfl
  cases predicate with
  | compare column comparison operand =>
    rw [Predicate.expr]
    exact .bind_any fun left _ => (hcomparison left comparison operand).bind
      fun expr hexpr => .ok ⟨expr, rfl, hexpr⟩
  | isIn => exact .bind_any fun _ _ => .ok ⟨_, rfl, rfl⟩
  | inSubquery => exact .bind_any fun _ _ => .ok ⟨_, rfl, rfl⟩
  | isNull => exact .bind_any fun _ _ => .ok ⟨_, rfl, rfl⟩
  | between =>
    exact .bind_any fun _ _ => .bind_any fun _ _ => .bind_any fun _ _ => .ok ⟨_, rfl, rfl⟩
  | existsIn => exact .ok ⟨_, rfl, rfl⟩
  | group => cases h
  | raw => exact .ok ⟨_, rfl, rfl⟩
  | datePart => exact .bind_any fun _ _ => .ok ⟨_, rfl, rfl⟩
  | jsonLength => exact .bind_any fun _ _ => .ok ⟨_, rfl, rfl⟩
  | like => exact .bind_any fun _ _ => .ok ⟨_, rfl, rfl⟩

theorem Predicate.Lowers.length_eq {predicate : Predicate} {expr : Option Expr}
    (h : predicate.Lowers tablePrefix purpose expr) :
    predicate.atoms.length = (Expr.listAtoms expr.toList).length := h.atoms.length_eq

theorem Filter.terms_lowers_of {filters : List Filter}
    (ih : ∀ filter ∈ filters, Ensures (filter.predicate.expr tablePrefix purpose)
      (filter.predicate.Lowers tablePrefix purpose)) :
    Ensures (Filter.terms tablePrefix purpose filters) (Filter.Lowers tablePrefix purpose filters) := by
  induction filters with
  | nil => exact .ok ⟨.nil, rfl, fun _ _ => rfl⟩
  | cons filter filters ihfilters =>
    obtain ⟨connective, predicate⟩ := filter
    rw [List.forall_mem_cons] at ih
    rw [Filter.terms]
    refine ih.1.bind fun expr hexpr => (ihfilters ih.2).bind fun terms hterms => .ok ?_
    have hlength := hexpr.length_eq
    have hvalue := hexpr.value
    cases expr with
    | none =>
      have hnone : predicate.atoms = [] := List.forall₂_nil_right_iff.1 hexpr.atoms
      refine ⟨?_, hterms.filled, fun truth start => ?_⟩
      · rw [Filter.atoms, hnone]
        exact hterms.atoms
      · rw [Filter.values, hvalue, hnone]
        exact hterms.values truth start
    | some expr =>
      rw [Option.toList_some, Expr.listAtoms, Expr.listAtoms, List.append_nil] at hlength
      refine ⟨?_, ?_, fun truth start => ?_⟩
      · have hatoms := hexpr.atoms
        rw [Option.toList_some, Expr.listAtoms, Expr.listAtoms, List.append_nil] at hatoms
        exact List.rel_append hatoms hterms.atoms
      · have hfilled := hexpr.filled
        rw [Option.toList_some, Expr.listFilled, Expr.listFilled, Bool.and_true] at hfilled
        show (expr.isFilled && Expr.listFilled (terms.map (·.2))) = true
        rw [hfilled, hterms.filled]
        rfl
      · rw [Filter.values, hvalue, hlength, hterms.values, Expr.termValues_cons]
        rfl

/-- The expression of a predicate keeps its atoms and its value. -/
theorem Predicate.expr_lowers (predicate : Predicate) :
    Ensures (predicate.expr tablePrefix purpose) (predicate.Lowers tablePrefix purpose) := by
  induction predicate using Predicate.group_induction with
  | atom predicate hpredicate =>
    intro expr hexpr
    obtain ⟨atom, rfl, hatom⟩ := Predicate.expr_isAtom hpredicate expr hexpr
    refine ⟨?_, ?_, fun truth start => ?_⟩
    · rw [Predicate.atoms_of_not_isGroup hpredicate, Option.toList_some, Expr.listAtoms,
        Expr.listAtoms, Expr.atoms_of_isAtom hatom]
      exact .cons hexpr .nil
    · rw [Option.toList_some, Expr.listFilled, Expr.isFilled_of_isAtom hatom]
      rfl
    · rw [Predicate.value_of_not_isGroup hpredicate, Option.map_some, Expr.value_of_isAtom hatom]
  | group filters ih =>
    rw [Predicate.expr]
    refine (Filter.terms_lowers_of ih).bind fun terms hterms => .ok ?_
    have hatoms := Expr.listAtoms_ofTerms terms
    have hfilled := Expr.listFilled_ofTerms hterms.filled
    have hvalue := fun truth start => Expr.value_ofTerms truth start terms
    refine ⟨?_, ?_, fun truth start => ?_⟩
    · rw [Predicate.atoms]
      have h := hterms.atoms
      rw [← hatoms] at h
      cases hexpr : Expr.ofTerms terms <;> rw [hexpr] at h <;> exact h
    · cases hexpr : Expr.ofTerms terms <;> rw [hexpr] at hfilled <;> exact hfilled
    · rw [Predicate.value, hterms.values, ← hvalue, Option.map_map]
      rfl

/-- The terms of filters keep their atoms and values. -/
theorem Filter.terms_lowers (filters : List Filter) :
    Ensures (Filter.terms tablePrefix purpose filters) (Filter.Lowers tablePrefix purpose filters) :=
  Filter.terms_lowers_of fun filter _ => filter.predicate.expr_lowers

theorem Filter.exists_terms_of {filters : List Filter}
    (ih : ∀ filter ∈ filters, (∀ atom ∈ filter.predicate.atoms,
        ∃ expr, atom.expr tablePrefix purpose = .ok expr) →
      ∃ expr, filter.predicate.expr tablePrefix purpose = .ok expr)
    (h : ∀ atom ∈ Filter.atoms filters, ∃ expr, atom.expr tablePrefix purpose = .ok expr) :
    ∃ terms, Filter.terms tablePrefix purpose filters = .ok terms := by
  induction filters with
  | nil => exact ⟨[], rfl⟩
  | cons filter filters ihfilters =>
    obtain ⟨connective, predicate⟩ := filter
    rw [List.forall_mem_cons] at ih
    rw [Filter.atoms, List.forall_mem_append] at h
    obtain ⟨expr, hexpr⟩ := ih.1 h.1
    obtain ⟨terms, hterms⟩ := ihfilters ih.2 h.2
    rw [Filter.terms, hexpr, hterms]
    exact ⟨_, rfl⟩

/-- A predicate can be lowered if its atoms can. -/
theorem Predicate.exists_expr (predicate : Predicate)
    (h : ∀ atom ∈ predicate.atoms, ∃ expr, atom.expr tablePrefix purpose = .ok expr) :
    ∃ expr, predicate.expr tablePrefix purpose = .ok expr := by
  induction predicate using Predicate.group_induction with
  | atom predicate hpredicate =>
    rw [Predicate.atoms_of_not_isGroup hpredicate] at h
    exact h predicate List.mem_cons_self
  | group filters ih =>
    obtain ⟨terms, hterms⟩ := Filter.exists_terms_of ih h
    rw [Predicate.expr, hterms]
    exact ⟨_, rfl⟩

theorem Filter.exists_terms {filters : List Filter}
    (h : ∀ atom ∈ Filter.atoms filters, ∃ expr, atom.expr tablePrefix purpose = .ok expr) :
    ∃ terms, Filter.terms tablePrefix purpose filters = .ok terms :=
  Filter.exists_terms_of (fun filter _ => filter.predicate.exists_expr) h

/-- Filters without a predicate have no condition, and others have one. -/
theorem Expr.ofFilters_eq_none_iff (filters : List Filter) :
    Expr.ofFilters tablePrefix purpose filters = .ok none ↔ Filter.atoms filters = [] := by
  constructor
  · intro h
    obtain ⟨terms, hterms, hnone⟩ := bind_pure_eq_ok_iff.1 h
    have hatoms := (Filter.terms_lowers filters terms hterms).atoms
    rw [← Expr.listAtoms_ofTerms, hnone] at hatoms
    exact List.forall₂_nil_right_iff.1 hatoms
  · intro hnil
    have hexprs : ∀ atom ∈ Filter.atoms filters, ∃ expr, atom.expr tablePrefix purpose = .ok expr := by
      simp [hnil]
    obtain ⟨terms, hterms⟩ := Filter.exists_terms hexprs
    have hlowers := Filter.terms_lowers filters terms hterms
    have hatoms := hlowers.atoms
    have hfilled := Expr.listFilled_ofTerms hlowers.filled
    rw [hnil, List.forall₂_nil_left_iff, ← Expr.listAtoms_ofTerms] at hatoms
    refine bind_pure_eq_ok_iff.2 ⟨terms, hterms, ?_⟩
    cases hexpr : Expr.ofTerms terms with
    | none => rfl
    | some expr =>
      rw [hexpr, Option.toList_some, Expr.listAtoms, List.append_eq_nil_iff] at hatoms
      rw [hexpr, Option.toList_some, Expr.listFilled, Bool.and_eq_true] at hfilled
      exact (Expr.atoms_ne_nil hfilled.1 hatoms.1).elim

end Lowering

/-! ## The text of filters -/

/-- The text of a predicate. -/
def Predicate.WrittenAs (r : Renderer) (context : Context) (tablePrefix : String)
    (purpose : Purpose) (predicate : Predicate) (sql : Sql) : Prop :=
  ∃ expr, predicate.expr tablePrefix purpose = .ok (some expr) ∧ expr.render r context = .ok sql

section Text

variable {r : Renderer} {context : Context} {tablePrefix : String} {purpose : Purpose}

theorem Predicate.WrittenAs.exists_expr {atoms : List Predicate} {sqls : List Sql}
    (h : List.Forall₂ (Predicate.WrittenAs r context tablePrefix purpose) atoms sqls) :
    ∀ atom ∈ atoms, ∃ expr, atom.expr tablePrefix purpose = .ok expr := by
  induction h with
  | nil => exact fun _ h => nomatch h
  | cons hhead _ ih =>
    obtain ⟨expr, hexpr, -⟩ := hhead
    exact List.forall_mem_cons.2 ⟨⟨some expr, hexpr⟩, ih⟩

theorem Predicate.WrittenAs.writtenFrom {atoms : List Predicate} {sqls : List Sql}
    {exprs : List Expr}
    (h : List.Forall₂ (Predicate.WrittenAs r context tablePrefix purpose) atoms sqls)
    (hexprs : List.Forall₂ (fun atom expr => atom.expr tablePrefix purpose = .ok (some expr))
      atoms exprs) :
    Expr.WrittenFrom r context (sqls.getD · {}) 0 exprs := by
  apply Expr.writtenFrom_getD
  induction h generalizing exprs with
  | nil =>
    cases hexprs
    exact .nil
  | cons hhead _ ih =>
    obtain ⟨expr, hexpr, hsql⟩ := hhead
    cases hexprs with
    | cons hfirst hrest =>
      cases hfirst.symm.trans hexpr
      exact .cons hsql (ih hrest)

end Text

/-- Filters are written so that their text, read with parentheses first, then AND, then OR, has their
value, whatever the values of their predicates. There is a text exactly if there is a predicate. -/
theorem filters_keep_meaning (r : Renderer) (context : Context) (tablePrefix : String)
    (purpose : Purpose) (filters : List Filter) :
    (Expr.ofFilters tablePrefix purpose filters = .ok none ↔ Filter.atoms filters = []) ∧
      ∀ sqls, List.Forall₂ (Predicate.WrittenAs r context tablePrefix purpose)
          (Filter.atoms filters) sqls → sqls ≠ [] →
        ∃ expr marks, Expr.ofFilters tablePrefix purpose filters = .ok (some expr) ∧
          expr.render r context = .ok (Mark.text (sqls.getD · {}) marks) ∧
          marks.filterMap Mark.atom? = List.range sqls.length ∧
          ∀ truth value, Mark.Reads truth marks value ↔ Filter.value truth filters = some value := by
  refine ⟨Expr.ofFilters_eq_none_iff filters, fun sqls hsqls hne => ?_⟩
  obtain ⟨terms, hterms⟩ := Filter.exists_terms (Predicate.WrittenAs.exists_expr hsqls)
  have hlowers := Filter.terms_lowers filters terms hterms
  have hvalue := fun truth => Expr.value_ofTerms truth 0 terms
  have hatoms := hlowers.atoms
  have hfilled := Expr.listFilled_ofTerms hlowers.filled
  rw [← Expr.listAtoms_ofTerms] at hatoms
  cases hexpr : Expr.ofTerms terms with
  | none =>
    rw [hexpr] at hatoms
    rw [List.forall₂_nil_right_iff.1 hatoms] at hsqls
    exact (hne (List.forall₂_nil_left_iff.1 hsqls)).elim
  | some expr =>
    rw [hexpr, Option.toList_some, Expr.listAtoms, Expr.listAtoms, List.append_nil] at hatoms
    rw [hexpr, Option.toList_some, Expr.listFilled, Expr.listFilled, Bool.and_true] at hfilled
    have hlength : expr.atoms.length = sqls.length :=
      hatoms.length_eq.symm.trans hsqls.length_eq
    refine ⟨expr, expr.marks 0, bind_pure_eq_ok_iff.2 ⟨terms, hterms, hexpr⟩,
      expr.render_marks 0 hfilled (Predicate.WrittenAs.writtenFrom hsqls hatoms), ?_, ?_⟩
    · rw [Expr.filterMap_marks, hlength, List.range_eq_range']
    · intro truth value
      have hreads := (Expr.reads_marks truth expr 0 hfilled).1
      rw [Filter.value, hlowers.values, ← hvalue, hexpr, Option.map_some, Option.some_inj]
      exact ⟨hreads.unique, fun h => h ▸ hreads⟩

/-- An OR in a group, a group without predicates, and an AND behind the group. -/
theorem filters_keep_meaning_grouped :
    let filters : List Filter := [⟨.or, .raw ⟨"a", []⟩⟩, ⟨.or, .group [⟨.and, .group []⟩]⟩,
      ⟨.and, .group [⟨.and, .raw ⟨"b", []⟩⟩, ⟨.or, .raw ⟨"c", []⟩⟩]⟩]
    ∃ expr marks, Expr.ofFilters "" .where filters = .ok (some expr) ∧
      expr.render ⟨.mysql, fun _ => .ok {}⟩ {} =
        .ok (Mark.text (["a", "b", "c"].map Sql.ofText |>.getD · {}) marks) ∧
      marks.filterMap Mark.atom? = List.range 3 ∧
      ∀ truth value, Mark.Reads truth marks value ↔ Filter.value truth filters = some value :=
  (filters_keep_meaning ⟨.mysql, fun _ => .ok {}⟩ {} "" .where
    [⟨.or, .raw ⟨"a", []⟩⟩, ⟨.or, .group [⟨.and, .group []⟩]⟩,
      ⟨.and, .group [⟨.and, .raw ⟨"b", []⟩⟩, ⟨.or, .raw ⟨"c", []⟩⟩]⟩]).2
    (["a", "b", "c"].map Sql.ofText)
    (.cons ⟨_, rfl, rfl⟩ (.cons ⟨_, rfl, rfl⟩ (.cons ⟨_, rfl, rfl⟩ .nil))) (List.cons_ne_nil _ _)

end QueryCompiler
