import Mathlib.Data.List.Induction
import Mathlib.Data.List.TakeWhile
import QueryCompiler.Dialect.Engine
import QueryCompiler.Proofs.Fragment

/-! # Different places have different selectors

A place inside a JSON column is written as the column in quotes with the steps behind it, in a path string
or as arrows. No two places are written alike (`Engine.placeText_injective`).

Names and arrows can be read from left to right, since nothing that follows makes them longer. A path
string cannot: the closing quote of a key that ends in a backslash looks like a quote of the key. Two
readings of a path that part there never meet again, as each quote that opens a key for one of them closes
one for the other (`stepChars_ne_shifted`).
-/

namespace QueryCompiler
set_option autoImplicit false

/-- A place inside a JSON column. -/
@[ext]
structure JsonPlace where
  column : Path
  steps : List JsonStep
  column_ne_nil : column ≠ []
  names : ∀ name ∈ column, name ≠ wildcard
  steps_ne_nil : steps ≠ []

/-- The scalar at a place, in SQL. -/
def Dialect.placeText (dialect : Dialect) (place : JsonPlace) : String :=
  dialect.hooks.jsonSelector place.steps (dialect.quotePath place.column)

variable {r s : List Char}

/-! ## Names and numbers -/

theorem escapeInName_append_inj {close : Char} {a b : List Char} (hr : r.head? ≠ some close)
    (hs : s.head? ≠ some close)
    (h : a.flatMap (Dialect.escapeInName close) ++ close :: r =
      b.flatMap (Dialect.escapeInName close) ++ close :: s) : a = b ∧ r = s := by
  have ha := Token.quotedName?_escaped close a hr
  have hb := Token.quotedName?_escaped close b hs
  rw [h, hb] at ha
  simpa [eq_comm] using ha

theorem repr_append_inj {m n : Nat} (hr : ∀ c ∈ r.head?, c.isDigit = false)
    (hs : ∀ c ∈ s.head?, c.isDigit = false) (h : m.repr.toList ++ r = n.repr.toList ++ s) :
    m = n ∧ r = s := by
  have hdigits : ∀ (k : Nat) (rest : List Char), (∀ c ∈ rest.head?, c.isDigit = false) →
      (k.repr.toList ++ rest).takeWhile Char.isDigit = k.repr.toList := by
    intro k rest hrest
    have hstop : rest.takeWhile Char.isDigit = [] := by
      cases rest with
      | nil => rfl
      | cons c cs => simp [hrest c rfl]
    rw [List.takeWhile_append_of_pos fun c hc => isDigit_of_mem_repr hc, hstop, List.append_nil]
  have hchars : m.repr.toList = n.repr.toList := by
    rw [← hdigits m r hr, h, hdigits n s hs]
  have hmn : m = n := by rw [← ofDigits_repr m, hchars, ofDigits_repr n]
  subst hmn
  exact ⟨rfl, List.append_cancel_left h⟩

namespace Dialect

variable {dialect : Dialect} (hquotes : dialect.DefaultQuotes)

variable (dialect) in
/-- What stands behind a path and does not make it longer. -/
def EndsPath (rest : List Char) : Prop :=
  rest.head? ≠ some dialect.closeQuote ∧ rest.head? ≠ some '.'

include hquotes

/-- A quoted name ends where its quotes do. The wildcard has none, and is told from a name by its star. -/
theorem quote_append_inj {name name' : Name} (hname : name = wildcard → dialect.openQuote ≠ '*')
    (hname' : name' = wildcard → dialect.openQuote ≠ '*')
    (hr : r.head? ≠ some dialect.closeQuote) (hs : s.head? ≠ some dialect.closeQuote)
    (h : (dialect.quote name).toList ++ r = (dialect.quote name').toList ++ s) :
    name = name' ∧ r = s := by
  rw [hquotes] at h
  have hstar : wildcard.toList = ['*'] := rfl
  by_cases hwild : name = wildcard
  · by_cases hwild' : name' = wildcard
    · rw [hwild, hwild'] at h ⊢
      exact ⟨rfl, List.append_cancel_left h⟩
    · simp only [quoteBetween, hwild, hwild', hstar, if_true, if_false, String.toList_ofList,
        List.cons_append, List.cons.injEq] at h
      exact absurd h.1.symm (hname hwild)
  · by_cases hwild' : name' = wildcard
    · simp only [quoteBetween, hwild, hwild', hstar, if_true, if_false, String.toList_ofList,
        List.cons_append, List.cons.injEq] at h
      exact absurd h.1 (hname' hwild')
    · have hchars : name.toList.flatMap (escapeInName dialect.closeQuote) ++ dialect.closeQuote :: r =
          name'.toList.flatMap (escapeInName dialect.closeQuote) ++ dialect.closeQuote :: s := by
        simpa [quoteBetween, hwild, hwild'] using h
      obtain ⟨hlist, hrest⟩ := escapeInName_append_inj hr hs hchars
      exact ⟨String.toList_inj.1 hlist, hrest⟩

theorem quotePath_append_inj (hdot : dialect.closeQuote ≠ '.') (hr : dialect.EndsPath r)
    (hs : dialect.EndsPath s) {path path' : Path} (hpath : path ≠ []) (hpath' : path' ≠ [])
    (hnames : ∀ name ∈ path, name = wildcard → dialect.openQuote ≠ '*')
    (hnames' : ∀ name ∈ path', name = wildcard → dialect.openQuote ≠ '*')
    (h : (dialect.quotePath path).toList ++ r = (dialect.quotePath path').toList ++ s) :
    path = path' ∧ r = s := by
  have hmore : ∀ cs : List Char, ('.' :: cs).head? ≠ some dialect.closeQuote := by
    intro cs hhead
    exact hdot (Option.some.inj hhead).symm
  have hcons : ∀ (name : Name) {rest : Path} (after : List Char), rest ≠ [] →
      (dialect.quotePath (name :: rest)).toList ++ after =
        (dialect.quote name).toList ++ '.' :: ((dialect.quotePath rest).toList ++ after) := by
    intro name rest after hrest
    simp [quotePath_cons dialect name hrest]
  induction path generalizing path' with
  | nil => exact absurd rfl hpath
  | cons name rest ih =>
    obtain ⟨name', rest', rfl⟩ := List.exists_cons_of_ne_nil hpath'
    obtain ⟨hname, hrest⟩ := List.forall_mem_cons.1 hnames
    obtain ⟨hname', hrest'⟩ := List.forall_mem_cons.1 hnames'
    by_cases hend : rest = []
    · by_cases hend' : rest' = []
      · subst hend
        subst hend'
        obtain ⟨hfirst, hafter⟩ := quote_append_inj hquotes hname hname' hr.1 hs.1 h
        exact ⟨by rw [hfirst], hafter⟩
      · -- what follows the only name would be a dot
        subst hend
        rw [quotePath_singleton, hcons name' s hend'] at h
        obtain ⟨-, hafter⟩ := quote_append_inj hquotes hname hname' hr.1 (hmore _) h
        exact absurd (by rw [hafter]; rfl) hr.2
    · by_cases hend' : rest' = []
      · subst hend'
        rw [quotePath_singleton, hcons name r hend] at h
        obtain ⟨-, hafter⟩ := quote_append_inj hquotes hname hname' (hmore _) hs.1 h
        exact absurd (by rw [← hafter]; rfl) hs.2
      · rw [hcons name r hend, hcons name' s hend'] at h
        obtain ⟨hfirst, hafter⟩ := quote_append_inj hquotes hname hname' (hmore _) (hmore _) h
        obtain ⟨hpaths, htails⟩ := ih hend hend' hrest hrest' (List.cons.inj hafter).2
        exact ⟨by rw [hfirst, hpaths], htails⟩

end Dialect

/-! ## Path strings -/

/-- Every double quote of a text that stands behind `last` has a backslash before it. -/
def Guarded : Char → List Char → Prop
  | _, [] => True
  | last, c :: cs => (c = '"' → last = '\\') ∧ Guarded c cs

theorem Guarded.right {last : Char} {a b : List Char} (h : Guarded last (a ++ b)) :
    Guarded (a.getLastD last) b := by
  induction a generalizing last with
  | nil => exact h
  | cons c a ih =>
    rw [List.getLastD_cons]
    exact ih h.2

theorem guarded_key (last : Char) (key : List Char) :
    Guarded last (key.flatMap JsonStep.escapeInPath) := by
  induction key generalizing last with
  | nil => trivial
  | cons c key ih =>
    rw [List.flatMap_cons]
    by_cases hsingle : c = '\''
    · subst hsingle
      exact ⟨by simp, by simp, ih '\''⟩
    · by_cases hdouble : c = '"'
      · subst hdouble
        exact ⟨by simp, fun _ => rfl, ih '"'⟩
      · have hchar : JsonStep.escapeInPath c = [c] := by simp [JsonStep.escapeInPath, hsingle, hdouble]
        rw [hchar]
        exact ⟨fun h => absurd h hdouble, ih c⟩

theorem getLast?_escapeInPath (c : Char) : (JsonStep.escapeInPath c).getLast? = some c := by
  by_cases hsingle : c = '\''
  · subst hsingle
    rfl
  · by_cases hdouble : c = '"'
    · subst hdouble
      rfl
    · simp [JsonStep.escapeInPath, hsingle, hdouble]

/-- A key can be read from right to left: each character is the last one of what is written for it. -/
theorem key_injective {key key' : List Char}
    (h : key.flatMap JsonStep.escapeInPath = key'.flatMap JsonStep.escapeInPath) : key = key' := by
  induction key using List.reverseRecOn generalizing key' with
  | nil =>
    cases key' with
    | nil => rfl
    | cons c key' =>
      have hnil : JsonStep.escapeInPath c = [] := by
        rw [List.flatMap_nil, List.flatMap_cons] at h
        exact (List.append_eq_nil_iff.1 h.symm).1
      have hlast := getLast?_escapeInPath c
      rw [hnil] at hlast
      cases hlast
  | append_singleton key c ih =>
    rcases List.eq_nil_or_concat key' with rfl | ⟨key', c', rfl⟩
    · have hlast := getLast?_escapeInPath c
      have hnil : JsonStep.escapeInPath c = [] := by
        rw [List.flatMap_append, List.flatMap_singleton, List.flatMap_nil] at h
        exact (List.append_eq_nil_iff.1 h).2
      rw [hnil] at hlast
      cases hlast
    · rw [List.concat_eq_append, List.flatMap_append, List.flatMap_append, List.flatMap_singleton,
        List.flatMap_singleton] at h
      have hlast : c = c' := by
        have hchars := congrArg List.getLast? h
        rw [List.getLast?_append, List.getLast?_append, getLast?_escapeInPath,
          getLast?_escapeInPath] at hchars
        exact Option.some.inj hchars
      subst hlast
      rw [ih (List.append_cancel_right h), List.concat_eq_append]

/-- The characters of steps inside a path string. -/
def stepChars (steps : List JsonStep) : List Char := steps.flatMap fun step => step.pathText.toList

theorem stepChars_key (name : String) (steps : List JsonStep) :
    stepChars (.key name :: steps) =
      '.' :: '"' :: (name.toList.flatMap JsonStep.escapeInPath ++ '"' :: stepChars steps) := by
  rw [stepChars, List.flatMap_cons, JsonStep.toList_pathText_key]
  simp [stepChars]

theorem stepChars_index (position : Nat) (steps : List JsonStep) :
    stepChars (.index position :: steps) =
      ('[' :: (position.repr.toList ++ [']'])) ++ stepChars steps := by
  rw [stepChars, List.flatMap_cons, JsonStep.toList_pathText_index]
  rfl

theorem stepChars_cons_ne_nil (step : JsonStep) (steps : List JsonStep) :
    stepChars (step :: steps) ≠ [] := by
  cases step with
  | key name =>
    rw [stepChars_key]
    exact List.cons_ne_nil _ _
  | index position =>
    rw [stepChars_index]
    exact List.cons_ne_nil _ _

/-- A text up to its first `q` covers what has no `q` in it. -/
theorem append_split {q : Char} {a b w rest : List Char} (hq : q ∉ a) (h : a ++ b = w ++ q :: rest) :
    ∃ w', w = a ++ w' ∧ b = w' ++ q :: rest := by
  rcases List.append_eq_append_iff.1 h with ⟨w', hw, hb⟩ | ⟨c, ha, hc⟩
  · exact ⟨w', hw, hb⟩
  · cases c with
    | nil => exact ⟨[], by simpa using ha.symm, hc.symm⟩
    | cons d c =>
      have hd : q = d := (List.cons.inj hc).1
      exact absurd (by rw [ha, hd]; simp) hq

/-- No path is read as the end of a key, its closing quote and another path. -/
theorem stepChars_ne_shifted (steps steps' : List JsonStep) {last : Char} {key : List Char}
    (hlast : last ≠ '\\') (hkey : Guarded last key) :
    stepChars steps ≠ key ++ '"' :: stepChars steps' := by
  -- a quote that opens a key on the left closes one on the right; then the sides change roles
  induction hn : steps.length + steps'.length using Nat.strong_induction_on
    generalizing steps steps' last key with
  | _ n ih =>
    intro h
    cases steps with
    | nil => simp [stepChars] at h
    | cons step steps =>
      cases step with
      | index position =>
        have hquote : '"' ∉ '[' :: (position.repr.toList ++ [']']) := by
          have hdigits : '"' ∉ position.repr.toList := by
            intro hmem
            exact absurd (isDigit_of_mem_repr hmem) (by decide)
          simpa using hdigits
        rw [stepChars_index] at h
        obtain ⟨rest, rfl, hrest⟩ := append_split hquote h
        have hbracket : ('[' :: (position.repr.toList ++ [']'])).getLastD last = ']' := by
          rw [List.getLastD_eq_getLast?, ← List.cons_append, List.getLast?_concat, Option.getD_some]
        have hguarded : Guarded ']' rest := hbracket ▸ hkey.right
        have hlt : steps.length + steps'.length < n := by
          rw [← hn, List.length_cons]
          omega
        exact ih _ hlt steps steps' (by decide) hguarded rfl hrest
      | key name =>
        rw [stepChars_key] at h
        cases key with
        | nil => exact absurd (List.cons.inj h).1 (by decide)
        | cons c key =>
          obtain ⟨rfl, hbehind⟩ := List.cons.inj h
          cases key with
          | nil =>
            have hrest := (List.cons.inj hbehind).2
            have hlt : steps'.length + steps.length < n := by
              rw [← hn, List.length_cons]
              omega
            exact ih _ hlt steps' steps (by decide) (guarded_key '"' name.toList) rfl hrest.symm
          | cons d key =>
            have hquote : '"' = d := (List.cons.inj hbehind).1
            exact absurd (hkey.2.1 hquote.symm) (by decide)

/-- A key and what follows it are read in one way. -/
theorem key_append_inj {key key' : List Char} {steps steps' : List JsonStep}
    (h : key.flatMap JsonStep.escapeInPath ++ '"' :: stepChars steps =
      key'.flatMap JsonStep.escapeInPath ++ '"' :: stepChars steps') :
    key = key' ∧ stepChars steps = stepChars steps' := by
  have hlonger : ∀ {a b : List Char} {first second : List JsonStep} {w : List Char},
      b.flatMap JsonStep.escapeInPath = a.flatMap JsonStep.escapeInPath ++ '"' :: w →
        stepChars first ≠ w ++ '"' :: stepChars second := by
    intro a b first second w hb
    have hguarded := guarded_key '"' b
    rw [hb] at hguarded
    exact stepChars_ne_shifted first second (by decide) hguarded.right.2
  rcases List.append_eq_append_iff.1 h with ⟨w, hkey, hrest⟩ | ⟨w, hkey, hrest⟩
  · cases w with
    | nil =>
      rw [List.append_nil] at hkey
      exact ⟨(key_injective hkey).symm, (List.cons.inj hrest).2⟩
    | cons c w =>
      obtain ⟨rfl, hsteps⟩ := List.cons.inj hrest
      exact absurd hsteps (hlonger hkey)
  · cases w with
    | nil =>
      rw [List.append_nil] at hkey
      exact ⟨key_injective hkey, (List.cons.inj hrest).2.symm⟩
    | cons c w =>
      obtain ⟨rfl, hsteps⟩ := List.cons.inj hrest
      exact absurd hsteps (hlonger hkey)

theorem stepChars_injective : Function.Injective stepChars := by
  intro steps steps' h
  induction steps generalizing steps' with
  | nil =>
    cases steps' with
    | nil => rfl
    | cons step steps' => exact absurd h.symm (stepChars_cons_ne_nil step steps')
  | cons step steps ih =>
    cases steps' with
    | nil => exact absurd h (stepChars_cons_ne_nil step steps)
    | cons step' steps' =>
      cases step with
      | key name =>
        cases step' with
        | key name' =>
          rw [stepChars_key, stepChars_key] at h
          obtain ⟨hname, hrest⟩ := key_append_inj (List.cons.inj (List.cons.inj h).2).2
          rw [String.toList_inj.1 hname, ih hrest]
        | index position' =>
          rw [stepChars_key, stepChars_index] at h
          exact absurd (List.cons.inj h).1 (by decide)
      | index position =>
        cases step' with
        | key name' =>
          rw [stepChars_key, stepChars_index] at h
          exact absurd (List.cons.inj h).1 (by decide)
        | index position' =>
          rw [stepChars_index, stepChars_index] at h
          have hchars : position.repr.toList ++ ']' :: stepChars steps =
              position'.repr.toList ++ ']' :: stepChars steps' := by
            simpa using h
          have hend : ∀ cs : List Char, ∀ c ∈ (']' :: cs).head?, c.isDigit = false := by
            intro cs c hc
            obtain rfl := Option.some.inj hc
            decide
          obtain ⟨hposition, hrest⟩ := repr_append_inj (hend _) (hend _) hchars
          rw [hposition, ih (List.cons.inj hrest).2]

theorem jsonPath_injective : Function.Injective jsonPath := by
  intro steps steps' h
  have hchars := congrArg String.toList h
  rw [toList_jsonPath, toList_jsonPath] at hchars
  exact stepChars_injective (List.append_cancel_right (List.cons.inj (List.cons.inj hchars).2).2)

/-! ## Arrows -/

theorem toList_arrowText_key (name : String) :
    (JsonStep.key name).arrowText.toList =
      '\'' :: (name.toList.flatMap (Dialect.escapeInName '\'') ++ ['\'']) := by
  have hescape : JsonStep.escapeInLiteral = Dialect.escapeInName '\'' := by
    funext c
    by_cases hc : c = '\''
    · subst hc
      rfl
    · rw [JsonStep.escapeInLiteral, Dialect.escapeInName, if_neg hc, if_neg hc]
  rw [JsonStep.toList_arrowText_key, hescape]

/-- What stands behind a step in a chain of arrows. -/
def EndsArrow (rest : List Char) : Prop := ∀ c ∈ rest.head?, c = '-'

/-- A step behind an arrow starts with a quote or a digit. -/
theorem head_arrowText (step : JsonStep) (hr : EndsArrow r) {c : Char}
    (h : (step.arrowText.toList ++ r).head? = some c) :
    (c = '\'' ∧ ∃ name, step = .key name) ∨
      ((c.isDigit = true ∨ c = '-') ∧ ∃ position, step = .index position) := by
  cases step with
  | key name =>
    rw [toList_arrowText_key] at h
    exact .inl ⟨(Option.some.inj h).symm, name, rfl⟩
  | index position =>
    refine .inr ⟨?_, position, rfl⟩
    cases hdigits : position.repr.toList with
    | nil =>
      rw [JsonStep.arrowText, hdigits] at h
      exact .inr (hr c h)
    | cons d digits =>
      rw [JsonStep.arrowText, hdigits] at h
      obtain rfl : d = c := Option.some.inj h
      have hmem : d ∈ position.repr.toList := by
        rw [hdigits]
        exact List.mem_cons_self
      exact .inl (isDigit_of_mem_repr hmem)

theorem arrowText_append_inj {step step' : JsonStep} (hr : EndsArrow r) (hs : EndsArrow s)
    (h : step.arrowText.toList ++ r = step'.arrowText.toList ++ s) : step = step' ∧ r = s := by
  have hquote : ∀ {rest : List Char}, EndsArrow rest → rest.head? ≠ some '\'' := by
    intro rest hrest hhead
    exact absurd (hrest _ hhead) (by decide)
  have hdigit : ∀ {rest : List Char}, EndsArrow rest → ∀ c ∈ rest.head?, c.isDigit = false := by
    intro rest hrest c hc
    rw [hrest c hc]
    decide
  have hkinds : ∀ {name : String} {position : Nat} {a b : List Char}, EndsArrow b →
      (JsonStep.key name).arrowText.toList ++ a ≠ (JsonStep.index position).arrowText.toList ++ b := by
    intro name position a b hb heq
    have hhead : ((JsonStep.index position).arrowText.toList ++ b).head? = some '\'' := by
      rw [← heq, toList_arrowText_key]
      rfl
    rcases head_arrowText _ hb hhead with ⟨-, name, hname⟩ | ⟨hc, -⟩
    · cases hname
    · exact absurd hc (by decide)
  cases step with
  | key name =>
    cases step' with
    | key name' =>
      rw [toList_arrowText_key, toList_arrowText_key] at h
      have hchars : name.toList.flatMap (Dialect.escapeInName '\'') ++ '\'' :: r =
          name'.toList.flatMap (Dialect.escapeInName '\'') ++ '\'' :: s := by
        simpa using h
      obtain ⟨hname, hrest⟩ := escapeInName_append_inj (hquote hr) (hquote hs) hchars
      exact ⟨by rw [String.toList_inj.1 hname], hrest⟩
    | index position' => exact absurd h (hkinds hs)
  | index position =>
    cases step' with
    | key name' => exact absurd h.symm (hkinds hr)
    | index position' =>
      obtain ⟨hposition, hrest⟩ := repr_append_inj (hdigit hr) (hdigit hs) h
      exact ⟨by rw [hposition], hrest⟩

theorem toList_jsonArrows_singleton (step : JsonStep) :
    (jsonArrows true [step]).toList = '-' :: '>' :: '>' :: step.arrowText.toList := by
  simp [jsonArrows]

theorem toList_jsonArrows_cons (step : JsonStep) {steps : List JsonStep} (h : steps ≠ []) :
    (jsonArrows true (step :: steps)).toList =
      '-' :: '>' :: (step.arrowText.toList ++ (jsonArrows true steps).toList) := by
  obtain ⟨next, rest, rfl⟩ := List.exists_cons_of_ne_nil h
  rw [jsonArrows]
  · simp
  · simp

theorem endsArrow_jsonArrows (steps : List JsonStep) : EndsArrow (jsonArrows true steps).toList := by
  intro c hc
  cases steps with
  | nil => cases hc
  | cons step rest =>
    by_cases hrest : rest = []
    · subst hrest
      rw [toList_jsonArrows_singleton] at hc
      exact (Option.some.inj hc).symm
    · rw [toList_jsonArrows_cons step hrest] at hc
      exact (Option.some.inj hc).symm

theorem jsonArrows_inj {steps steps' : List JsonStep} (hsteps : steps ≠ []) (hsteps' : steps' ≠ [])
    (h : (jsonArrows true steps).toList = (jsonArrows true steps').toList) : steps = steps' := by
  have hnil : EndsArrow [] := by
    intro c hc
    cases hc
  -- the second `>` of the last arrow is no step
  have hlonger : ∀ (step last : JsonStep) {rest : List JsonStep}, rest ≠ [] →
      (jsonArrows true (step :: rest)).toList ≠ (jsonArrows true [last]).toList := by
    intro step last rest hrest heq
    rw [toList_jsonArrows_cons step hrest, toList_jsonArrows_singleton] at heq
    have hbehind := (List.cons.inj (List.cons.inj heq).2).2
    have hhead : (step.arrowText.toList ++ (jsonArrows true rest).toList).head? = some '>' := by
      rw [hbehind]
      rfl
    rcases head_arrowText step (endsArrow_jsonArrows rest) hhead with ⟨hc, -⟩ | ⟨hc, -⟩
    · exact absurd hc (by decide)
    · exact absurd hc (by decide)
  induction steps generalizing steps' with
  | nil => exact absurd rfl hsteps
  | cons step rest ih =>
    obtain ⟨step', rest', rfl⟩ := List.exists_cons_of_ne_nil hsteps'
    by_cases hrest : rest = []
    · subst hrest
      by_cases hrest' : rest' = []
      · subst hrest'
        rw [toList_jsonArrows_singleton, toList_jsonArrows_singleton] at h
        have hchars := (List.cons.inj (List.cons.inj (List.cons.inj h).2).2).2
        have hsame : step.arrowText.toList ++ [] = step'.arrowText.toList ++ [] := by rw [hchars]
        rw [(arrowText_append_inj hnil hnil hsame).1]
      · exact absurd h.symm (hlonger step' step hrest')
    · by_cases hrest' : rest' = []
      · subst hrest'
        exact absurd h (hlonger step step' hrest)
      · rw [toList_jsonArrows_cons step hrest, toList_jsonArrows_cons step' hrest'] at h
        obtain ⟨hstep, hchain⟩ := arrowText_append_inj (endsArrow_jsonArrows rest)
          (endsArrow_jsonArrows rest') (List.cons.inj (List.cons.inj h).2).2
        rw [hstep, ih hrest hrest' hchain]

/-! ## Selectors -/

namespace Dialect

variable {dialect : Dialect} (hquotes : dialect.DefaultQuotes)

include hquotes

/-- A selector tells places apart if what it puts behind the column neither goes on with the column nor is
the same for different steps. -/
theorem placeText_injective_of {before : String} {after : List JsonStep → String}
    (hselector : ∀ steps, dialect.hooks.jsonSelector steps = Frame.wrap ⟨before, after steps⟩)
    (hdot : dialect.closeQuote ≠ '.') (hends : ∀ steps, dialect.EndsPath (after steps).toList)
    (hafter : ∀ {steps steps' : List JsonStep}, steps ≠ [] → steps' ≠ [] →
      (after steps).toList = (after steps').toList → steps = steps') :
    Function.Injective dialect.placeText := by
  intro place place' h
  rw [placeText, placeText, hselector, hselector] at h
  have hchars := congrArg String.toList h
  simp only [Frame.wrap, String.toList_append, List.append_assoc, List.append_cancel_left_eq] at hchars
  have hnames : ∀ place : JsonPlace, ∀ name ∈ place.column,
      name = wildcard → dialect.openQuote ≠ '*' :=
    fun place name hmem hwild => absurd hwild (place.names name hmem)
  obtain ⟨hcolumn, hrest⟩ := quotePath_append_inj hquotes hdot (hends _) (hends _)
    place.column_ne_nil place'.column_ne_nil (hnames place) (hnames place') hchars
  exact JsonPlace.ext hcolumn (hafter place.steps_ne_nil place'.steps_ne_nil hrest)

theorem placeText_injective_of_path {before closing : String}
    (hselector : ∀ steps, dialect.hooks.jsonSelector steps =
      Frame.wrap ⟨before, ", " ++ jsonPath steps ++ closing⟩)
    (hdot : dialect.closeQuote ≠ '.') (hcomma : dialect.closeQuote ≠ ',') :
    Function.Injective dialect.placeText := by
  apply placeText_injective_of hquotes hselector hdot
  · intro steps
    have hhead : (", " ++ jsonPath steps ++ closing).toList.head? = some ',' := by simp
    rw [EndsPath, hhead]
    exact ⟨fun h => hcomma (Option.some.inj h).symm, by decide⟩
  · intro steps steps' _ _ h
    simp only [String.toList_append, List.append_assoc, List.append_cancel_left_eq,
      List.append_cancel_right_eq] at h
    exact jsonPath_injective (String.toList_inj.1 h)

theorem placeText_injective_of_arrows {before : String}
    (hselector : ∀ steps, dialect.hooks.jsonSelector steps =
      Frame.wrap ⟨before, jsonArrows true steps⟩)
    (hdot : dialect.closeQuote ≠ '.') (hdash : dialect.closeQuote ≠ '-') :
    Function.Injective dialect.placeText := by
  apply placeText_injective_of hquotes hselector hdot
  · intro steps
    have harrow := endsArrow_jsonArrows steps
    constructor
    · intro hclose
      exact hdash (harrow _ hclose)
    · intro hpoint
      exact absurd (harrow _ hpoint) (by decide)
  · exact jsonArrows_inj

end Dialect

/-- For every engine, different places inside JSON columns are written differently, whatever characters
the names and keys have. -/
theorem Engine.placeText_injective (engine : Engine) :
    Function.Injective engine.dialect.placeText := by
  cases engine with
  | mysql => exact Dialect.placeText_injective_of_path rfl (fun _ => rfl) (by decide) (by decide)
  | postgres => exact Dialect.placeText_injective_of_arrows rfl (fun _ => rfl) (by decide) (by decide)
  | sqlite => exact Dialect.placeText_injective_of_path rfl (fun _ => rfl) (by decide) (by decide)
  | sqlserver => exact Dialect.placeText_injective_of_path rfl (fun _ => rfl) (by decide) (by decide)

/-- Two keys, of which the first ends in a backslash, and one key with the quotes and the dot that stand
between them. -/
theorem Engine.placeText_injective_backslash :
    let place : JsonPlace := ⟨["meta"], [.key "a\\", .key "b"], by decide, by decide, by decide⟩
    let place' : JsonPlace := ⟨["meta"], [.key "a\".\"b"], by decide, by decide, by decide⟩
    sqlite.dialect.placeText place = "json_extract(\"meta\", '$.\"a\\\".\"b\"')" ∧
      sqlite.dialect.placeText place' = "json_extract(\"meta\", '$.\"a\\\".\\\"b\"')" ∧
      sqlite.dialect.placeText place ≠ sqlite.dialect.placeText place' := by
  intro place place'
  refine ⟨by decide +kernel, by decide +kernel, fun h => ?_⟩
  have hplaces : place = place' := sqlite.placeText_injective h
  exact absurd (congrArg JsonPlace.steps hplaces) (by decide)

end QueryCompiler
