import QueryCompiler.Dialect.Basic
import QueryCompiler.Sql.Placeholder

/-! # Texts between which a scan stands outside of quotes

A text that ends in a closing quote must not meet another quote, or the two are read as one quote
inside the text. `Passes` keeps track of this: it says from which states a scan may enter a text, in
which states it leaves it, and how many placeholders it meets on the way. Texts that pass from edge to
edge can be put together (`Passes.append`).

* `Passes.separator`: texts without quotes and placeholders pass, and leave the scan clear.
* `Passes.quoted`: a name in quotes passes, whatever its characters.
* `Passes.jsonPath`, `Passes.jsonArrows`: so do JSON paths.
-/

namespace QueryCompiler
set_option autoImplicit false

/-! ## Edges -/

/-- Whether a character is neither a quote nor a placeholder. -/
def isPlainChar (c : Char) : Bool :=
  c ≠ '\'' && c ≠ '"' && c ≠ '\x60' && c ≠ '[' && c ≠ ']' && c ≠ '?'

/-- What is known of a scan between two texts. -/
inductive Edge where
  /-- It stands outside of quotes, perhaps just behind a closing one. -/
  | any
  /-- It stands outside of quotes, and not just behind a closing one. -/
  | clear
  deriving DecidableEq

/-- The states of a scan at an edge. -/
def Edge.admits : Edge → Scan → Prop
  | _, .outside => True
  | .any, .closing close => isPlainChar close = false
  | _, _ => False

theorem Edge.eq_outside {state : Scan} (h : Edge.clear.admits state) : state = .outside := by
  cases state with
  | outside => rfl
  | inside close => exact h.elim
  | closing close => exact h.elim

theorem Edge.isOutside {edge : Edge} {state : Scan} (h : edge.admits state) :
    state.isOutside = true := by
  cases state with
  | outside => rfl
  | inside close => cases edge <;> exact h.elim
  | closing close => rfl

/-! ## Scanning texts one behind the other -/

theorem Scan.run_append (state : Scan) (a b : List Char) :
    state.run (a ++ b) = (state.run a).run b := List.foldl_append

theorem Scan.count_cons (state : Scan) (c : Char) (cs : List Char) :
    Scan.count ['?'] state (c :: cs) =
      (if state.step c = .outside ∧ c = '?' then 1 else 0) + Scan.count ['?'] (state.step c) cs := by
  have hhead : List.isPrefixOf ['?'] (c :: cs) = decide (c = '?') := by
    simp only [List.isPrefixOf, Bool.and_true]
    exact decide_eq_decide.mpr eq_comm
  simp [Scan.count, hhead]

theorem Scan.count_append (state : Scan) (a b : List Char) :
    Scan.count ['?'] state (a ++ b) =
      Scan.count ['?'] state a + Scan.count ['?'] (state.run a) b := by
  induction a generalizing state with
  | nil => simp [Scan.count, Scan.run]
  | cons c a ih =>
    rw [List.cons_append, Scan.count_cons, Scan.count_cons, ih, Nat.add_assoc]
    rfl

/-- What a scan shows of a text at a character: all that is outside of quotes, and the quotes. Only the
character behind a closing quote tells that it closes. -/
def Scan.shows : Scan → Char → List Char
  | .outside, c => [c]
  | .inside _, _ => []
  | .closing close, c => if c = close then [] else [close, c]

/-- What a scan shows of a text, up to a closing quote at its end. -/
def Scan.outline : Scan → List Char → List Char
  | _, [] => []
  | state, c :: cs => state.shows c ++ (state.step c).outline cs

theorem Scan.outline_append (state : Scan) (a b : List Char) :
    state.outline (a ++ b) = state.outline a ++ (state.run a).outline b := by
  induction a generalizing state with
  | nil => rfl
  | cons c a ih =>
    rw [List.cons_append, Scan.outline, Scan.outline, ih, List.append_assoc]
    rfl

theorem Scan.shows_ne_nil {state : Scan} {c : Char} (h : state.step c = .outside) :
    state.shows c ≠ [] := by
  cases state with
  | outside => exact List.cons_ne_nil _ _
  | inside close =>
    rw [Scan.step] at h
    split at h <;> cases h
  | closing close =>
    rw [Scan.step] at h
    split at h
    · cases h
    · next hc =>
      rw [Scan.shows, if_neg hc]
      exact List.cons_ne_nil _ _

/-- Where nothing is shown, there are no placeholders. -/
theorem Scan.count_eq_zero {state : Scan} {cs : List Char} (h : state.outline cs = []) :
    Scan.count ['?'] state cs = 0 := by
  induction cs generalizing state with
  | nil => rfl
  | cons c cs ih =>
    obtain ⟨hshows, hrest⟩ := List.append_eq_nil_iff.1 h
    have hstep : state.step c ≠ .outside := fun hstep => Scan.shows_ne_nil hstep hshows
    rw [Scan.count_cons, ih hrest, if_neg fun hc => hstep hc.1]

/-- A scan that enters the text at the one edge leaves it at the other, after `n` placeholders. -/
def Passes (first last : Edge) (n : Nat) (cs : List Char) : Prop :=
  ∀ state, first.admits state →
    last.admits (state.run cs) ∧ Scan.count ['?'] state cs = n

namespace Passes

variable {first middle last : Edge} {m n : Nat} {a b cs : List Char}

theorem nil (edge : Edge) : Passes edge edge 0 [] := fun _ h => ⟨h, rfl⟩

theorem append (ha : Passes first middle m a) (hb : Passes middle last n b) :
    Passes first last (m + n) (a ++ b) := by
  intro state hstate
  obtain ⟨hmiddle, hm⟩ := ha state hstate
  obtain ⟨hlast, hn⟩ := hb (state.run a) hmiddle
  rw [Scan.run_append, Scan.count_append, hm, hn]
  exact ⟨hlast, rfl⟩

theorem of_any (h : Passes .any last n cs) : Passes .clear last n cs := by
  intro state hstate
  rw [Edge.eq_outside hstate]
  exact h .outside trivial

theorem to_any (h : Passes first .clear n cs) : Passes first .any n cs := by
  intro state hstate
  obtain ⟨hlast, hn⟩ := h state hstate
  rw [Edge.eq_outside hlast]
  exact ⟨trivial, hn⟩

/-- From a clear edge there is one scan to follow. -/
theorem of_outside (hlast : last.admits (Scan.outside.run cs))
    (hn : Scan.count ['?'] .outside cs = n) : Passes .clear last n cs := by
  intro state hstate
  rw [Edge.eq_outside hstate]
  exact ⟨hlast, hn⟩

end Passes

/-! ## Separators -/

/-- Whether a text has plain characters only. -/
def isPlainText (cs : List Char) : Bool := cs.all isPlainChar

/-- Whether a text keeps what is before it apart from what is behind it. -/
def isSeparator (cs : List Char) : Bool := !cs.isEmpty && isPlainText cs

theorem Scan.enter_plain {c : Char} (hc : isPlainChar c = true) : Scan.enter c = .outside := by
  simp only [isPlainChar, Bool.and_eq_true, decide_eq_true_eq] at hc
  simp [Scan.enter, hc]

theorem Scan.step_plain {edge : Edge} {state : Scan} {c : Char} (hstate : edge.admits state)
    (hc : isPlainChar c = true) : state.step c = .outside := by
  cases state with
  | outside => exact Scan.enter_plain hc
  | inside close => cases edge <;> exact hstate.elim
  | closing close =>
    cases edge with
    | clear => exact hstate.elim
    | any =>
      have hclose : isPlainChar close = false := hstate
      have hne : c ≠ close := by
        intro h
        rw [h, hclose] at hc
        cases hc
      rw [Scan.step, if_neg hne, Scan.enter_plain hc]

theorem Scan.ne_placeholder {c : Char} (hc : isPlainChar c = true) : c ≠ '?' := by
  intro h
  rw [h] at hc
  exact absurd hc (by decide)

namespace Passes

variable {last : Edge} {n : Nat} {cs : List Char}

/-- Behind a plain character nothing is left of a closing quote before it. -/
theorem plain_cons {c : Char} (hc : isPlainChar c = true) (h : Passes .clear last n cs) :
    Passes .any last n (c :: cs) := by
  intro state hstate
  have hstep := Scan.step_plain hstate hc
  obtain ⟨hlast, hn⟩ := h .outside trivial
  have hrun : state.run (c :: cs) = (state.step c).run cs := rfl
  rw [hrun, Scan.count_cons, hstep, hn]
  simp [hlast, Scan.ne_placeholder hc]

theorem plain : ∀ {cs : List Char}, isPlainText cs = true → Passes .clear .clear 0 cs
  | [], _ => nil .clear
  | c :: cs, h => by
    rw [isPlainText, List.all_cons, Bool.and_eq_true] at h
    exact (plain_cons h.1 (plain h.2)).of_any

theorem separator (h : isSeparator cs = true) : Passes .any .clear 0 cs := by
  rw [isSeparator, Bool.and_eq_true] at h
  obtain ⟨hne, hplain⟩ := h
  cases cs with
  | nil => cases hne
  | cons c cs =>
    rw [isPlainText, List.all_cons, Bool.and_eq_true] at hplain
    exact plain_cons hplain.1 (plain hplain.2)

/-- A separator as it stands in the text of the program. -/
theorem literal (h : isSeparator cs = true) : Passes .any .clear 0 (String.ofList cs).toList := by
  rw [String.toList_ofList]
  exact separator h

end Passes

theorem isSeparator_append {a b : List Char} (ha : isSeparator a = true)
    (hb : isSeparator b = true) : isSeparator (a ++ b) = true := by
  rw [isSeparator, Bool.and_eq_true] at ha hb ⊢
  refine ⟨?_, ?_⟩
  · simpa using fun h => absurd h (by simpa using ha.1)
  · rw [isPlainText, List.all_append, Bool.and_eq_true]
    exact ⟨ha.2, hb.2⟩

/-- Decimal digits are plain. -/
theorem isSeparator_repr (n : Nat) : isSeparator n.repr.toList = true := by
  rw [isSeparator, Bool.and_eq_true]
  constructor
  · simp [Nat.toDigits_ne_nil]
  · rw [isPlainText, List.all_eq_true]
    intro c hc
    have hdigit := isDigit_of_mem_repr hc
    rw [isPlainChar]
    simp only [Bool.and_eq_true, decide_eq_true_eq]
    refine ⟨⟨⟨⟨⟨?_, ?_⟩, ?_⟩, ?_⟩, ?_⟩, ?_⟩ <;> rintro rfl <;> exact absurd hdigit (by decide)

/-! ## Quotes -/

/-- Inside of quotes that `close` ends, a scan of the text stays there and shows nothing. -/
def Stays (close : Char) (cs : List Char) : Prop :=
  (Scan.inside close).run cs = .inside close ∧ (Scan.inside close).outline cs = []

namespace Stays

variable {close : Char} {a b cs : List Char}

theorem nil (close : Char) : Stays close [] := ⟨rfl, rfl⟩

theorem append (ha : Stays close a) (hb : Stays close b) : Stays close (a ++ b) := by
  obtain ⟨harun, haoutline⟩ := ha
  obtain ⟨hbrun, hboutline⟩ := hb
  rw [Stays, Scan.run_append, Scan.outline_append, harun, haoutline, hbrun, hboutline]
  exact ⟨rfl, rfl⟩

theorem other {c : Char} (h : c ≠ close) : Stays close [c] := by
  have hstep : (Scan.inside close).step c = .inside close := by rw [Scan.step, if_neg h]
  exact ⟨hstep, rfl⟩

theorem of_not_mem (h : close ∉ cs) : Stays close cs := by
  induction cs with
  | nil => exact nil close
  | cons c cs ih =>
    have hc : c ≠ close := fun heq => h (heq ▸ List.mem_cons_self)
    exact (other hc).append (ih fun hcs => h (List.mem_cons_of_mem c hcs))

/-- A doubled quote is read as one inside the text. -/
theorem doubled (close : Char) : Stays close [close, close] := by
  have hfirst : (Scan.inside close).step close = .closing close := by rw [Scan.step, if_pos rfl]
  have hsecond : (Scan.closing close).step close = .inside close := by rw [Scan.step, if_pos rfl]
  constructor
  · show ((Scan.inside close).step close).step close = _
    rw [hfirst, hsecond]
  · rw [Scan.outline, hfirst, Scan.outline, Scan.shows, Scan.shows, if_pos rfl]
    rfl

theorem flatMap {α : Type} {f : α → List Char} (h : ∀ a, Stays close (f a)) {as : List α} :
    Stays close (as.flatMap f) := by
  induction as with
  | nil => exact nil close
  | cons a as ih =>
    rw [List.flatMap_cons]
    exact (h a).append ih

theorem escapeInName (close c : Char) : Stays close (Dialect.escapeInName close c) := by
  unfold Dialect.escapeInName
  split
  · next h =>
    rw [h]
    exact doubled close
  · next h => exact other h

theorem escapeInPath (c : Char) : Stays '\'' (JsonStep.escapeInPath c) := by
  unfold JsonStep.escapeInPath
  split
  · exact doubled '\''
  · next h =>
    split
    · exact of_not_mem (by decide)
    · exact other h

theorem escapeInLiteral (c : Char) : Stays '\'' (JsonStep.escapeInLiteral c) := by
  unfold JsonStep.escapeInLiteral
  split
  · exact doubled '\''
  · next h => exact other h

theorem of_plain (hclose : isPlainChar close = false) (h : isPlainText cs = true) :
    Stays close cs := by
  refine of_not_mem fun hc => ?_
  have hplain := List.all_eq_true.mp h close hc
  rw [hclose] at hplain
  cases hplain

end Stays

/-- A text in quotes, with what is inside of them written so that it stays there. -/
theorem Passes.quoted {opening close : Char} {cs : List Char}
    (hopen : Scan.enter opening = .inside close) (hclose : isPlainChar close = false)
    (h : Stays close cs) : Passes .clear .any 0 (opening :: (cs ++ [close])) := by
  obtain ⟨hrun, houtline⟩ := h
  have hcount := Scan.count_eq_zero houtline
  have hopen' : Scan.outside.step opening = .inside close := hopen
  have hend : (Scan.inside close).step close = .closing close := by rw [Scan.step, if_pos rfl]
  apply Passes.of_outside
  · have e : Scan.outside.run (opening :: (cs ++ [close])) =
        ((Scan.outside.step opening).run cs).step close := by
      show (Scan.outside.step opening).run (cs ++ [close]) = _
      rw [Scan.run_append]
      rfl
    rw [e, hopen', hrun, hend]
    exact hclose
  · rw [Scan.count_cons, hopen', Scan.count_append, hcount, hrun, Scan.count_cons, hend]
    rfl

/-- A text that is in quotes as a whole. -/
def InQuotes (opening close : Char) (cs : List Char) : Prop :=
  ∃ inner, Stays close inner ∧ cs = opening :: (inner ++ [close])

namespace InQuotes

variable {opening close : Char} {cs : List Char}

theorem passes (hopen : Scan.enter opening = .inside close) (hclose : isPlainChar close = false)
    (h : InQuotes opening close cs) : Passes .clear .any 0 cs := by
  obtain ⟨inner, hinner, rfl⟩ := h
  exact .quoted hopen hclose hinner

/-- Of a text in quotes, a scan shows the quotes. -/
theorem scan (hopen : Scan.enter opening = .inside close) (h : InQuotes opening close cs) :
    Scan.outside.run cs = .closing close ∧ Scan.outside.outline cs = [opening] := by
  obtain ⟨inner, ⟨hrun, houtline⟩, rfl⟩ := h
  have hopen' : Scan.outside.step opening = .inside close := hopen
  have hend : (Scan.inside close).step close = .closing close := by rw [Scan.step, if_pos rfl]
  constructor
  · show (Scan.outside.step opening).run (inner ++ [close]) = _
    rw [hopen', Scan.run_append, hrun]
    exact hend
  · rw [Scan.outline, hopen', Scan.outline_append, houtline, hrun]
    rfl

theorem quoteBetween (opening close : Char) {name : Name} (h : name ≠ wildcard) :
    InQuotes opening close (Dialect.quoteBetween opening close name).toList := by
  refine ⟨name.toList.flatMap (Dialect.escapeInName close), .flatMap (Stays.escapeInName close), ?_⟩
  rw [Dialect.quoteBetween, if_neg h, String.toList_ofList]

end InQuotes

/-! ## JSON paths -/

theorem Stays.pathText (step : JsonStep) : Stays '\'' step.pathText.toList := by
  cases step with
  | key name =>
    have hopen : Stays '\'' ['.', '"'] := .of_not_mem (by decide)
    have hend : Stays '\'' ['"'] := .of_not_mem (by decide)
    rw [JsonStep.toList_pathText_key]
    exact hopen.append ((Stays.flatMap Stays.escapeInPath).append hend)
  | index position =>
    have hopen : Stays '\'' ['['] := .of_not_mem (by decide)
    have hend : Stays '\'' [']'] := .of_not_mem (by decide)
    have hdigits := isSeparator_repr position
    rw [isSeparator, Bool.and_eq_true] at hdigits
    rw [JsonStep.toList_pathText_index]
    exact hopen.append ((Stays.of_plain (by decide) hdigits.2).append hend)

theorem InQuotes.jsonPath (steps : List JsonStep) :
    InQuotes '\'' '\'' (QueryCompiler.jsonPath steps).toList := by
  have hdollar : Stays '\'' ['$'] := .other (by decide)
  have hsteps : Stays '\'' (steps.flatMap fun step => step.pathText.toList) := .flatMap Stays.pathText
  exact ⟨_, hdollar.append hsteps, toList_jsonPath steps⟩

theorem Passes.jsonPath (steps : List JsonStep) :
    Passes .clear .any 0 (QueryCompiler.jsonPath steps).toList :=
  (InQuotes.jsonPath steps).passes rfl (by decide)

theorem InQuotes.arrowText (name : String) :
    InQuotes '\'' '\'' (JsonStep.key name).arrowText.toList :=
  ⟨_, .flatMap Stays.escapeInLiteral, JsonStep.toList_arrowText_key name⟩

theorem Passes.arrowText (step : JsonStep) : Passes .clear .any 0 step.arrowText.toList := by
  cases step with
  | key name => exact (InQuotes.arrowText name).passes rfl (by decide)
  | index position => exact (Passes.separator (isSeparator_repr position)).of_any.to_any

/-- A chain of arrows may follow anything. -/
theorem Passes.jsonArrows (asText : Bool) :
    ∀ steps : List JsonStep, Passes .any .any 0 (QueryCompiler.jsonArrows asText steps).toList
  | [] => .nil .any
  | [step] => by
    have harrow : Passes .any .clear 0 (if asText then "->>" else "->").toList := by
      cases asText with
      | true => exact .literal (by decide)
      | false => exact .literal (by decide)
    rw [QueryCompiler.jsonArrows, String.toList_append]
    exact harrow.append (.arrowText step)
  | step :: next :: steps => by
    have harrow : Passes .any .clear 0 "->".toList := .literal (by decide)
    rw [QueryCompiler.jsonArrows, String.toList_append, String.toList_append]
    · exact (harrow.append (.arrowText step)).append (.jsonArrows asText (next :: steps))
    · intro h
      cases h

end QueryCompiler
