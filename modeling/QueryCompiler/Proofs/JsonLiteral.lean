import Mathlib.Algebra.Group.Nat.Even
import Mathlib.Data.List.DropRight
import QueryCompiler.Compiler
import QueryCompiler.Dialect.Engine
import QueryCompiler.Proofs.Scan

/-! # JSON paths as string literals

For MySQL a backslash in a string literal takes the next character as it is. A JSON path doubles the
single quotes of its keys and leaves their backslashes alone, so a quote behind an odd number of
backslashes loses its first half to them, and its second half ends the literal. A path is one literal
exactly if no key has such a quote (`Dialect.mysql_path_isLiteral_iff`); a key that has one goes on as
SQL (`Dialect.mysql_key_ends_literal`).
-/

namespace QueryCompiler
set_option autoImplicit false

/-! ## String literals -/

/-- Where a reader stands that has met the opening quote of a string literal. -/
inductive LiteralScan where
  | inside
  /-- Behind a backslash. -/
  | escaped
  /-- Behind a quote, which ends the literal unless another one follows. -/
  | closing
  /-- Behind the literal and at least one more character. -/
  | ended
  deriving DecidableEq

namespace LiteralScan

/-- The state after a character, by the rules of MySQL. -/
def step : LiteralScan → Char → LiteralScan
  | .inside, c => if c = '\\' then .escaped else if c = '\'' then .closing else .inside
  | .escaped, _ => .inside
  | .closing, c => if c = '\'' then .inside else .ended
  | .ended, _ => .ended

def run (state : LiteralScan) (cs : List Char) : LiteralScan := cs.foldl step state

/-- Whether a quote has ended the literal, as far as has been read. -/
def isBehind : LiteralScan → Bool
  | .closing | .ended => true
  | .inside | .escaped => false

theorem run_append (state : LiteralScan) (a b : List Char) :
    state.run (a ++ b) = (state.run a).run b := List.foldl_append

theorem run_cons (state : LiteralScan) (c : Char) (cs : List Char) :
    state.run (c :: cs) = (state.step c).run cs := rfl

theorem run_ended (cs : List Char) : LiteralScan.ended.run cs = .ended := by
  induction cs with
  | nil => rfl
  | cons c cs ih => exact ih

theorem run_plain {cs : List Char} (h : ∀ c ∈ cs, c ≠ '\\' ∧ c ≠ '\'') :
    LiteralScan.inside.run cs = .inside := by
  induction cs with
  | nil => rfl
  | cons c cs ih =>
    obtain ⟨hc, hcs⟩ := List.forall_mem_cons.1 h
    have hstep : LiteralScan.inside.step c = .inside := by rw [step, if_neg hc.1, if_neg hc.2]
    rw [run_cons, hstep]
    exact ih hcs

theorem step_quote_of_not_isBehind {state : LiteralScan} (h : state.isBehind = false) :
    state.step '"' = .inside := by
  cases state with
  | inside | escaped => rfl
  | closing | ended => cases h

theorem step_quote_of_isBehind {state : LiteralScan} (h : state.isBehind = true) :
    state.step '"' = .ended := by
  cases state with
  | inside | escaped => cases h
  | closing | ended => rfl

end LiteralScan

/-- Whether a text is one whole string literal of MySQL: the last character closes what the first one
opens, and none before it does. -/
def isMysqlLiteral (text : String) : Bool :=
  match text.toList with
  | [] => false
  | c :: body => c = '\'' && LiteralScan.inside.run body = .closing

/-! ## Keys -/

/-- The number of backslashes at the end of a text. -/
def trailingBackslashes (cs : List Char) : Nat := (cs.rtakeWhile (· = '\\')).length

/-- Every single quote of a key stands behind an even number of backslashes, so that none of these is
left to take it. -/
def KeepsQuotes (key : List Char) : Prop :=
  ∀ before after, key = before ++ '\'' :: after → Even (trailingBackslashes before)

theorem trailingBackslashes_concat (key : List Char) (c : Char) :
    trailingBackslashes (key ++ [c]) = if c = '\\' then trailingBackslashes key + 1 else 0 := by
  unfold trailingBackslashes
  rw [List.rtakeWhile_concat]
  by_cases hc : c = '\\'
  · simp [hc]
  · simp [hc]

theorem keepsQuotes_nil : KeepsQuotes [] := by
  intro before after h
  simp at h

theorem keepsQuotes_concat_iff (key : List Char) (c : Char) :
    KeepsQuotes (key ++ [c]) ↔ KeepsQuotes key ∧ (c = '\'' → Even (trailingBackslashes key)) := by
  constructor
  · intro h
    refine ⟨fun before after hkey => ?_, fun hc => ?_⟩
    · apply h before (after ++ [c])
      rw [hkey, List.append_assoc, List.cons_append]
    · apply h key []
      rw [hc]
  · rintro ⟨hkey, hlast⟩ before after h
    -- the quote is either the last character or one of those before it
    rcases List.eq_nil_or_concat after with rfl | ⟨rest, last, rfl⟩
    · obtain ⟨rfl, hc⟩ := List.append_inj_left' h rfl, List.append_inj_right' h rfl
      exact hlast (List.singleton_inj.1 hc)
    · have hsplit : key ++ [c] = (before ++ '\'' :: rest) ++ [last] := by
        rw [h, List.concat_eq_append, List.append_assoc, List.cons_append]
      exact hkey before rest (List.append_inj_left' hsplit rfl)

namespace LiteralScan

theorem escapeInPath_quote : JsonStep.escapeInPath '\'' = ['\'', '\''] := rfl

theorem escapeInPath_of_ne {c : Char} (h : c ≠ '\'') :
    JsonStep.escapeInPath c = if c = '"' then ['\\', '"'] else [c] := by
  rw [JsonStep.escapeInPath, if_neg h]

/-- Once a literal has ended inside of a key, no character of the key opens it for long. -/
theorem isBehind_run_escapeInPath {state : LiteralScan} (h : state.isBehind = true) (c : Char) :
    (state.run (JsonStep.escapeInPath c)).isBehind = true := by
  by_cases hquote : c = '\''
  · rw [hquote, escapeInPath_quote]
    cases state with
    | inside | escaped => cases h
    | closing | ended => rfl
  · have hended : ∀ cs, cs.head? ≠ some '\'' → cs ≠ [] → state.run cs = .ended := by
      intro cs hhead hne
      obtain ⟨d, ds, rfl⟩ := List.exists_cons_of_ne_nil hne
      have hd : d ≠ '\'' := fun hd => hhead (by rw [hd]; rfl)
      have hstep : state.step d = .ended := by
        cases state with
        | inside | escaped => cases h
        | closing => rw [step, if_neg hd]
        | ended => rfl
      rw [run_cons, hstep, run_ended]
    rw [escapeInPath_of_ne hquote]
    by_cases hdouble : c = '"'
    · rw [if_pos hdouble, hended _ (by decide) (by decide)]
      rfl
    · rw [if_neg hdouble, hended [c] (by simpa using hquote) (List.cons_ne_nil _ _)]
      rfl

/-- Inside of a key that keeps its quotes, the backslashes at the end say whether one is left. -/
theorem run_of_keepsQuotes {key : List Char} (h : KeepsQuotes key) :
    LiteralScan.inside.run (key.flatMap JsonStep.escapeInPath) =
      if Even (trailingBackslashes key) then .inside else .escaped := by
  induction key using List.reverseRecOn with
  | nil => rfl
  | append_singleton key c ih =>
    obtain ⟨hkey, hlast⟩ := (keepsQuotes_concat_iff key c).1 h
    rw [List.flatMap_append, List.flatMap_singleton, run_append, ih hkey,
      trailingBackslashes_concat]
    by_cases hquote : c = '\''
    · rw [if_pos (hlast hquote), hquote]
      rfl
    · rw [escapeInPath_of_ne hquote]
      by_cases hback : c = '\\'
      · subst hback
        by_cases heven : Even (trailingBackslashes key)
        · simp [heven, Nat.even_add_one, run, step]
        · simp [heven, Nat.even_add_one, run, step]
      · by_cases heven : Even (trailingBackslashes key)
        · by_cases hdouble : c = '"'
          · simp [heven, hdouble, run, step]
          · simp [heven, hquote, hback, hdouble, run, step]
        · by_cases hdouble : c = '"'
          · simp [heven, hdouble, run, step]
          · simp [heven, hback, hdouble, run, step]

theorem isBehind_of_not_keepsQuotes {key : List Char} (h : ¬KeepsQuotes key) :
    (LiteralScan.inside.run (key.flatMap JsonStep.escapeInPath)).isBehind = true := by
  induction key using List.reverseRecOn with
  | nil => exact absurd keepsQuotes_nil h
  | append_singleton key c ih =>
    rw [List.flatMap_append, List.flatMap_singleton, run_append]
    by_cases hkey : KeepsQuotes key
    · have hlast : c = '\'' ∧ ¬Even (trailingBackslashes key) := by
        rw [keepsQuotes_concat_iff] at h
        simpa [hkey] using h
      -- the backslash takes the first half of the quote, and the second half ends the literal
      rw [run_of_keepsQuotes hkey, if_neg hlast.2, hlast.1]
      rfl
    · exact isBehind_run_escapeInPath (ih hkey) c

/-! ## Paths -/

theorem run_key_of_keepsQuotes {name : String} (h : KeepsQuotes name.toList) :
    LiteralScan.inside.run (JsonStep.key name).pathText.toList = .inside := by
  have hkey := run_of_keepsQuotes h
  have hinside : (LiteralScan.inside.run (name.toList.flatMap JsonStep.escapeInPath)).isBehind =
      false := by
    rw [hkey]
    split <;> rfl
  rw [JsonStep.toList_pathText_key]
  show LiteralScan.inside.run (_ ++ ['"']) = _
  rw [run_append]
  exact step_quote_of_not_isBehind hinside

theorem run_key_of_not_keepsQuotes {name : String} (h : ¬KeepsQuotes name.toList) :
    LiteralScan.inside.run (JsonStep.key name).pathText.toList = .ended := by
  rw [JsonStep.toList_pathText_key]
  show LiteralScan.inside.run (_ ++ ['"']) = _
  rw [run_append]
  exact step_quote_of_isBehind (isBehind_of_not_keepsQuotes h)

theorem run_index (position : Nat) :
    LiteralScan.inside.run (JsonStep.index position).pathText.toList = .inside := by
  have hdigits : ∀ c ∈ position.repr.toList, c ≠ '\\' ∧ c ≠ '\'' := by
    intro c hc
    have hdigit := isDigit_of_mem_repr hc
    constructor
    · rintro rfl
      exact absurd hdigit (by decide)
    · rintro rfl
      exact absurd hdigit (by decide)
  rw [JsonStep.toList_pathText_index]
  apply run_plain
  rw [List.forall_mem_cons, List.forall_mem_append, List.forall_mem_singleton]
  exact ⟨by decide, hdigits, by decide⟩

/-- Inside of a path a literal stays open up to the first key that does not keep its quotes. -/
theorem run_path (steps : List JsonStep) :
    ((∀ name, JsonStep.key name ∈ steps → KeepsQuotes name.toList) →
      LiteralScan.inside.run (steps.flatMap fun step => step.pathText.toList) = .inside) ∧
    (¬(∀ name, JsonStep.key name ∈ steps → KeepsQuotes name.toList) →
      LiteralScan.inside.run (steps.flatMap fun step => step.pathText.toList) = .ended) := by
  induction steps with
  | nil => exact ⟨fun _ => rfl, fun h => absurd (fun name hname => nomatch hname) h⟩
  | cons step steps ih =>
    rw [List.flatMap_cons, run_append]
    cases step with
    | index position =>
      rw [run_index]
      simpa using ih
    | key first =>
      by_cases hfirst : KeepsQuotes first.toList
      · rw [run_key_of_keepsQuotes hfirst]
        simpa [hfirst] using ih
      · rw [run_key_of_not_keepsQuotes hfirst, run_ended]
        simp [hfirst]

end LiteralScan

theorem isMysqlLiteral_jsonPath_iff (steps : List JsonStep) :
    isMysqlLiteral (jsonPath steps) = true ↔
      ∀ name, JsonStep.key name ∈ steps → KeepsQuotes name.toList := by
  have hrun : LiteralScan.inside.run
      ('$' :: (steps.flatMap (fun step => step.pathText.toList) ++ ['\''])) =
        (LiteralScan.inside.run (steps.flatMap fun step => step.pathText.toList)).step '\'' := by
    rw [LiteralScan.run_cons]
    exact LiteralScan.run_append _ _ ['\'']
  obtain ⟨hkeeps, hbreaks⟩ := LiteralScan.run_path steps
  unfold isMysqlLiteral
  rw [toList_jsonPath]
  by_cases h : ∀ name, JsonStep.key name ∈ steps → KeepsQuotes name.toList
  · simpa [hrun, hkeeps h, LiteralScan.step] using h
  · simpa [hrun, hbreaks h, LiteralScan.step] using h

/-- What MySQL is given as the path of a JSON value, or of the length of an array, is one string literal
exactly if every single quote of every key stands behind an even number of backslashes. -/
theorem Dialect.mysql_path_isLiteral_iff (steps : List JsonStep) :
    ∃ literal : String,
      (∀ column, Dialect.mysql.hooks.jsonSelector steps column =
        "json_unquote(json_extract(" ++ column ++ ", " ++ literal ++ "))") ∧
      (steps ≠ [] → ∀ column, Dialect.mysql.hooks.jsonLength steps column =
        "json_length(" ++ column ++ ", " ++ literal ++ ")") ∧
      (isMysqlLiteral literal = true ↔
        ∀ name, JsonStep.key name ∈ steps → KeepsQuotes name.toList) := by
  refine ⟨jsonPath steps, fun column => ?_, fun hsteps column => ?_, isMysqlLiteral_jsonPath_iff steps⟩
  · show "json_unquote(json_extract(" ++ column ++ (", " ++ jsonPath steps ++ "))") = _
    simp only [String.append_assoc]
  · have hempty : steps.isEmpty = false := by simpa using hsteps
    show "json_length(" ++ column ++ (if steps.isEmpty then _ else ", " ++ jsonPath steps ++ ")") = _
    rw [hempty, if_neg Bool.false_ne_true]
    simp only [String.append_assoc]

/-- A key that is read from a fragment, ends the literal in which it stands, and goes on as a condition
that always holds. -/
theorem Dialect.mysql_key_ends_literal :
    let fragment := "meta->\"a\\')) OR 1=1 -- \""
    let key := "a\\')) OR 1=1 -- "
    parseColumn fragment = .ok ⟨["meta"], [.key key], none⟩ ∧
      jsonPath [.key key] = "'$.\"a\\''" ++ ")) OR 1=1 -- \"'" ∧
      isMysqlLiteral "'$.\"a\\''" = true ∧ isMysqlLiteral (jsonPath [.key key]) = false ∧
      Compiler.select ⟨.mysql, ""⟩ {
          source := some (.table "users")
          filters := [⟨.and, .compare fragment .eq (.value (.int 1))⟩] } =
        .ok ⟨"SELECT * FROM `users` WHERE " ++
          "json_unquote(json_extract(`meta`, '$.\"a\\'')) OR 1=1 -- \"')) = ?", [⟨.int 1, .where⟩]⟩ := by
  decide +kernel

end QueryCompiler
