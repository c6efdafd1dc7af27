import QueryCompiler.Proofs.LikeLowering
import QueryCompiler.Proofs.Written

/-! # Writing alike trees

A `Pairing` relates stretches of SQL of two runs. It is closed under putting stretches together and
relates the small parts: equal words, alike names, alike values. So it relates whatever is written of
alike trees (`Expr.render_like`, `Query.render_like`).
-/

namespace QueryCompiler
set_option autoImplicit false

/-! ## Pairings -/

/-- The functions that make texts of alike expressions. -/
inductive Hooks.Pairs (hooks : Hooks) (L : Likeness) : (String → String) → (String → String) → Prop where
  | same {f : String → String} : hooks.Has f → Pairs hooks L f f
  | jsonSelector {steps steps' : List JsonStep} : List.Forall₂ (JsonStep.Like L) steps steps' →
    Pairs hooks L (hooks.jsonSelector steps) (hooks.jsonSelector steps')
  | jsonLength {steps steps' : List JsonStep} : List.Forall₂ (JsonStep.Like L) steps steps' →
    Pairs hooks L (hooks.jsonLength steps) (hooks.jsonLength steps')

/-- A relation between stretches of SQL that are written of alike trees. -/
structure Pairing (L : Likeness) (E : Error → Error → Prop) (dialect : Dialect) where
  /-- Whether two stretches may stand between the edges, in place of each other. -/
  holds : Edge → Edge → Sql → Sql → Prop
  blame (e : Error) : E e e
  name_self (name : Name) : L.name name name
  of_any {last : Edge} {a a' : Sql} : holds .any last a a' → holds .clear last a a'
  to_any {first : Edge} {a a' : Sql} : holds first .clear a a' → holds first .any a a'
  append {first middle last : Edge} {a a' b b' : Sql} :
    holds first middle a a' → holds middle last b b' → holds first last (a ++ b) (a' ++ b')
  empty (edge : Edge) : holds edge edge {} {}
  separator {text : String} : isSeparator text.toList = true → holds .any .clear text text
  phrase {text : String} : dialect.Phrase text → holds .any .clear text text
  hook {f f' : String → String} {a a' : Sql} : dialect.hooks.Pairs L f f' →
    holds .clear .any a a' → holds .clear .any (a.mapText f) (a'.mapText f')
  name {name name' : Name} : L.name name name' →
    holds .clear .any (dialect.quote name) (dialect.quote name')
  bound {value value' : Value} (purpose : Purpose) : L.value value value' →
    holds .clear .any (.bound dialect.placeholder value purpose)
      (.bound dialect.placeholder value' purpose)
  raw {raw raw' : Raw} (purpose : Purpose) : L.raw raw raw' →
    holds .clear .any (.ofRaw raw purpose) (.ofRaw raw' purpose)
  retag {a a' : Sql} (purpose : Purpose) : holds .clear .any a a' →
    holds .clear .any (a.retag purpose) (a'.retag purpose)
  lock {lock : Lock} {text : String} : L.lock lock → dialect.lockText lock = some text →
    holds .clear .any text text

variable {L : Likeness} {E : Error → Error → Prop} {dialect : Dialect}

theorem JsonStep.like_self (hkey : ∀ key, L.key key key) (steps : List JsonStep) :
    List.Forall₂ (JsonStep.Like L) steps steps := by
  refine List.forall₂_same.2 fun step _ => ?_
  cases step with
  | key name => exact .key (hkey name)
  | index position => exact .index position

/-- Where keys are alike only if they are the same, so are the functions that are given them. -/
theorem Hooks.Pairs.eq {hooks : Hooks} (hkey : ∀ key key', L.key key key' → key = key')
    {f f' : String → String} (h : hooks.Pairs L f f') : f = f' := by
  have hsteps {steps steps' : List JsonStep} (h : List.Forall₂ (JsonStep.Like L) steps steps') :
      steps = steps' := by
    refine List.forall₂_eq_eq_eq ▸ h.imp fun step step' hstep => ?_
    cases hstep with
    | key halike => exact congrArg JsonStep.key (hkey _ _ halike)
    | index => rfl
  cases h with
  | same => rfl
  | jsonSelector h | jsonLength h => rw [hsteps h]

/-- A pairing as a judgement on stretches without leaves, which are written the same twice. -/
def Pairing.diagonal (P : Pairing L E dialect) (nested : Plan → Except Error Sql) :
    Judgement ⟨dialect, nested⟩ where
  holds first last leaves sql := leaves = [] → P.holds first last sql sql
  of_any h hleaves := P.of_any (h hleaves)
  to_any h hleaves := P.to_any (h hleaves)
  append ha hb hleaves :=
    P.append (ha (List.append_eq_nil_iff.1 hleaves).1) (hb (List.append_eq_nil_iff.1 hleaves).2)
  empty edge _ := P.empty edge
  separator h _ := P.separator h
  phrase h _ := P.phrase h
  hook hf h hleaves := P.hook (.same hf) (h hleaves)
  name name _ := P.name (P.name_self name)
  bound _ _ := nofun
  raw _ _ := nofun
  plan _ _ := nofun
  lock _ := nofun
  unlocked _ _ := nofun

/-- Two stretches that a pairing relates. -/
def Paired (P : Pairing L E dialect) (first last : Edge) (a a' : Sql) : Prop :=
  P.holds first last a a'

namespace Paired

variable {P : Pairing L E dialect} {first middle last : Edge} {a a' b b' : Sql}

theorem of_any (h : Paired P .any last a a') : Paired P .clear last a a' := P.of_any h

theorem to_any (h : Paired P first last a a') : Paired P first .any a a' := by
  cases last with
  | any => exact h
  | clear => exact P.to_any h

theorem also (ha : Paired P first middle a a') (hb : Paired P middle last b b') :
    Paired P first last (a ++ b) (a' ++ b') := P.append ha hb

/-- Text that is written the same twice. -/
theorem same {text : String} (h : Written (P.diagonal fun _ => .ok {}) first last [] text) :
    Paired P first last text text := h rfl

theorem empty (edge : Edge) : Paired P edge edge {} {} := P.empty edge

theorem lead (text : String) (h : isSeparator text.toList = true) :
    Paired P .any .clear text text := P.separator h

/-- The same separator behind two stretches. -/
theorem lit (ha : Paired P first middle a a') (text : String)
    (h : isSeparator text.toList = true) : Paired P first .clear (a ++ text) (a' ++ text) :=
  ha.to_any.also (P.separator h)

theorem plain {text : String} (h : isPlainText text.toList = true) :
    Paired P .clear .clear text text := same (Written.plain h)

theorem parens (h : Paired P .clear .any a a') : Paired P .any .clear a.parens a'.parens :=
  ((lead "(" rfl).also h).lit ")" rfl

/-- Stretches in parentheses, as parts of an expression. -/
theorem enclosed (h : Paired P .clear .any a a') : Paired P .clear .any a.parens a'.parens :=
  h.parens.of_any.to_any

theorem parensIf (needed : Bool) (h : Paired P .clear .any a a') :
    Paired P .clear .any (a.parensIf needed) (a'.parensIf needed) := by
  cases needed with
  | true => exact h.enclosed
  | false => exact h

theorem hooked {f f' : String → String} (hf : dialect.hooks.Pairs L f f')
    (h : Paired P .clear .any a a') : Paired P .clear .any (a.mapText f) (a'.mapText f') := P.hook hf h

theorem hookedText {f f' : String → String} {text text' : String} (hf : dialect.hooks.Pairs L f f')
    (h : Paired P .clear .any text text') : Paired P .clear .any (f text) (f' text') := P.hook hf h

theorem join {separator : String} (hsep : isSeparator separator.toList = true)
    {sqls sqls' : List Sql} (h : List.Forall₂ (Paired P .clear .any) sqls sqls') :
    Paired P .clear .any (Sql.join separator sqls) (Sql.join separator sqls') := by
  induction h with
  | nil => exact (empty .clear).to_any
  | cons hhead htail ih =>
    cases htail with
    | nil => exact hhead
    | cons hnext hrest => exact (hhead.lit separator hsep).also ih

theorem commas {sqls sqls' : List Sql} (h : List.Forall₂ (Paired P .clear .any) sqls sqls') :
    Paired P .clear .any (Sql.join ", " sqls) (Sql.join ", " sqls') :=
  join (isSeparator_literal (by decide)) h

/-! ## Names -/

theorem joinTexts {separator : String} (hsep : isSeparator separator.toList = true)
    {texts texts' : List String}
    (h : List.Forall₂ (fun text text' : String => Paired P .clear .any text text') texts texts') :
    Paired P .clear .any (Dialect.joinTexts separator texts)
      (Dialect.joinTexts separator texts') := by
  induction h with
  | nil => exact (empty .clear).to_any
  | cons hhead htail ih =>
    cases htail with
    | nil => exact hhead
    | cons hnext hrest => exact (hhead.lit separator hsep).also ih

/-- Texts that are made of alike names, one by one. -/
theorem joinNames {separator : String} (hsep : isSeparator separator.toList = true)
    {f f' : Name → String}
    (hf : ∀ name name', L.name name name' → Paired P .clear .any (f name) (f' name'))
    {names names' : List Name} (h : List.Forall₂ L.name names names') :
    Paired P .clear .any (Dialect.joinTexts separator (names.map f))
      (Dialect.joinTexts separator (names'.map f')) := by
  refine joinTexts hsep ?_
  rw [List.forall₂_map_left_iff, List.forall₂_map_right_iff]
  exact h.imp hf

theorem quotePath {path path' : Path} (h : List.Forall₂ L.name path path') :
    Paired P .clear .any (dialect.quotePath path) (dialect.quotePath path') :=
  joinNames (isSeparator_literal (by decide)) (fun _ _ => P.name) h

theorem quoteNames {names names' : List Name} (h : List.Forall₂ L.name names names') :
    Paired P .clear .any (dialect.quoteNames names) (dialect.quoteNames names') :=
  joinNames (isSeparator_literal (by decide)) (fun _ _ => P.name) h

theorem aliasText {label label' : Option Name} (h : Option.Rel L.name label label') :
    Paired P .any .any (dialect.aliasText label) (dialect.aliasText label') := by
  cases h with
  | none => exact empty .any
  | some hname => exact (lead " AS " rfl).also (P.name hname)

theorem quoteTable {table table' : TableName} (h : TableName.Like L table table') :
    Paired P .clear .any (dialect.quoteTable table) (dialect.quoteTable table') :=
  (quotePath h.path).also (aliasText h.label)

theorem quoteColumn {column column' : ColumnRef} (h : ColumnRef.Like L column column') :
    Paired P .clear .any (dialect.quoteColumn column) (dialect.quoteColumn column') := by
  rw [Dialect.quoteColumn, Dialect.quoteColumn, Sql.ofText_append, Sql.ofText_append]
  refine also ?_ (aliasText h.label)
  rw [forall₂_isEmpty_eq h.json]
  split
  · exact quotePath h.path
  · exact hookedText (.jsonSelector h.json) (quotePath h.path)

/-! ## Queries -/

theorem wrapBranch (h : Paired P .clear .any a a') :
    Paired P .clear .any (dialect.wrapBranch a) (dialect.wrapBranch a') := by
  unfold Dialect.wrapBranch
  split
  · have htable := (lead "SELECT * FROM " rfl).to_any.also h.parens
    exact ((htable.lit " AS " rfl).also (P.name (P.name_self tempTable))).of_any
  · exact h.enclosed

/-- The arguments of an aggregate, or the wildcard if there are none. -/
theorem arguments {sqls sqls' : List Sql} (h : List.Forall₂ (Paired P .clear .any) sqls sqls') :
    Paired P .clear .any (if sqls.isEmpty then .ofText wildcard else Sql.join ", " sqls)
      (if sqls'.isEmpty then .ofText wildcard else Sql.join ", " sqls') := by
  cases h with
  | nil => exact (lead wildcard rfl).of_any.to_any
  | cons hhead htail => exact commas (.cons hhead htail)

end Paired

/-- Two ways to compile nested plans that are paired on alike plans. -/
def Pairing.Nests (P : Pairing L E dialect) (nested nested' : Plan → Except Error Sql) : Prop :=
  ∀ plan plan', Plan.Like L plan plan' →
    Matched E (Paired P .clear .any) (nested plan) (nested' plan')

section Parts

variable (P : Pairing L E dialect)

theorem Dialect.jsonLengthText_like {arguments arguments' : List Expr}
    (h : List.Forall₂ (Expr.Like L) arguments arguments') :
    Matched E (fun text text' : String => Paired P .clear .any text text')
      (dialect.jsonLengthText arguments) (dialect.jsonLengthText arguments') := by
  cases h with
  | nil => exact .error (P.blame _)
  | cons hhead htail =>
    cases hhead with
    | path hpath =>
      cases htail with
      | nil => exact .ok (.hookedText (.jsonLength .nil) (.quotePath hpath))
      | cons => exact .error (P.blame _)
    | json hcolumn hsteps =>
      cases htail with
      | nil => exact .ok (.hookedText (.jsonLength hsteps) (.quotePath hcolumn))
      | cons => exact .error (P.blame _)
    | _ => exact .error (P.blame _)

theorem Dialect.likeText_like (caseSensitive : Bool) :
    Matched E (fun text text' : String => Paired P .any .clear text text')
      (dialect.likeText caseSensitive) (dialect.likeText caseSensitive) := by
  unfold Dialect.likeText
  split
  · next word h => exact .ok (P.phrase (.like h))
  · exact .error (P.blame _)

/-- A lock has the same text twice, in whichever place. -/
theorem Dialect.lockAt_like (placement : LockPlacement) {lock : Option Lock}
    (h : ∀ l ∈ lock, L.lock l) :
    Matched E (fun text text' => text = text' ∧
        Paired P .any .any (Dialect.lockSuffix text) (Dialect.lockSuffix text))
      (dialect.lockAt placement lock) (dialect.lockAt placement lock) := by
  cases lock with
  | none => exact .ok ⟨rfl, .empty .any⟩
  | some lock =>
    have hlocked : Paired P .any .any (Dialect.lockSuffix (dialect.lockText lock))
        (Dialect.lockSuffix (dialect.lockText lock)) := by
      cases htext : dialect.lockText lock with
      | none => exact .empty .any
      | some text => exact (Paired.lead " " rfl).also (P.lock (h lock rfl) htext)
    unfold Dialect.lockAt
    refine .ite Iff.rfl (fun _ => ?_) fun _ => .ok ⟨rfl, .empty .any⟩
    split
    · exact .ite Iff.rfl (fun _ => .error (P.blame _)) fun _ => .ok ⟨rfl, hlocked⟩
    · exact .ok ⟨rfl, hlocked⟩

end Parts

/-! ## Trees -/

section Trees

variable {nested nested' : Plan → Except Error Sql}

mutual

theorem Expr.render_like (P : Pairing L E dialect) (hnested : P.Nests nested nested')
    (context : Context) : ∀ (expr expr' : Expr), Expr.Like L expr expr' →
      Matched E (Paired P .clear .any) (expr.render ⟨dialect, nested⟩ context)
        (expr'.render ⟨dialect, nested'⟩ context)
  | .path path => by
    intro _ h
    cases h with
    | path hpath =>
      rw [Expr.render, Expr.render]
      exact .ok (.quotePath hpath)
  | .json column steps => by
    intro _ h
    cases h with
    | json hcolumn hsteps =>
      rw [Expr.render, Expr.render]
      exact .ok (.hookedText (.jsonSelector hsteps) (.quotePath hcolumn))
  | .bound value purpose => by
    intro _ h
    cases h with
    | bound _ hvalue =>
      rw [Expr.render, Expr.render]
      exact .ok (P.bound _ hvalue)
  | .raw raw => by
    intro _ h
    cases h with
    | raw hraw =>
      rw [Expr.render, Expr.render]
      exact .ok (P.raw _ hraw)
  | .nested nested => by
    intro _ h
    cases h with
    | nested hnest =>
      rw [Expr.render, Expr.render]
      exact (Nested.render_like P hnested context nested _ hnest).bind
        fun _ _ hsql => .ok hsql.enclosed
  | .call (.datePart part) [] => by
    intro _ h
    cases h with
    | call _ harguments =>
      cases harguments
      rw [Expr.render, Expr.render]
      · exact .error (P.blame _)
      · intro argument h
        cases h
      · intro argument h
        cases h
  | .call (.datePart part) [argument] => by
    intro _ h
    cases h with
    | call _ harguments =>
      obtain _ | ⟨hargument, hnil⟩ := harguments
      cases hnil
      rw [Expr.render, Expr.render]
      exact (Expr.render_like P hnested context argument _ hargument).bind
        fun _ _ hsql => .ok (hsql.hooked (.same (.dateFunction part)))
  | .call (.datePart part) (first :: second :: rest) => by
    intro _ h
    cases h with
    | call _ harguments =>
      have hlength := harguments.length_eq
      obtain _ | ⟨_, _ | ⟨_, _⟩⟩ := harguments
      rw [Expr.render, Expr.render, hlength]
      · exact .error (P.blame _)
      · intro argument h
        cases h
      · intro argument h
        cases h
  | .call .jsonLength arguments => by
    intro _ h
    cases h with
    | call _ harguments =>
      rw [Expr.render, Expr.render]
      exact (Dialect.jsonLengthText_like P harguments).bind fun _ _ htext => .ok htext
  | .aggregate function distinct arguments => by
    intro _ h
    cases h with
    | aggregate _ _ harguments =>
      rw [Expr.render, Expr.render]
      refine (Expr.renderList_like P hnested context arguments _ harguments).bind
        fun _ _ hsqls => .ok ?_
      have hdistinct : Paired P .clear .clear (distinctText distinct) (distinctText distinct) :=
        .plain (isPlainText_distinctText distinct)
      have hname := (Paired.lead (P := P) function.sql function.isSeparator_sql).of_any.to_any
      exact (hname.also (hdistinct.also (.arguments hsqls)).parens).to_any
  | .compare left comparison right => by
    intro _ h
    cases h with
    | compare _ hleft hright =>
      rw [Expr.render, Expr.render, ← hleft.compared_eq]
      refine (Expr.render_like P hnested context left _ hleft).bind fun _ _ hfirst => ?_
      refine (Expr.render_like P hnested context right _ hright).bind fun _ _ hsecond => .ok ?_
      have hsign := ((hfirst.lit " " rfl).lit comparison.sql comparison.isSeparator_sql).lit " " rfl
      exact hsign.also (hsecond.hooked (.same (Expr.has_compared dialect left)))
  | .between operand low high negated => by
    intro _ h
    cases h with
    | between _ hoperand hlow hhigh =>
      rw [Expr.render, Expr.render]
      refine (Expr.render_like P hnested context operand _ hoperand).bind fun _ _ hoperand => ?_
      refine (Expr.render_like P hnested context low _ hlow).bind fun _ _ hlow => ?_
      refine (Expr.render_like P hnested context high _ hhigh).bind fun _ _ hhigh => .ok ?_
      have hnot := (hoperand.lit " " rfl).also (.plain (isPlainText_notText negated))
      exact (((hnot.lit "BETWEEN " rfl).also hlow).lit " AND " rfl).also hhigh
  | .inList operand values negated => by
    intro _ h
    cases h with
    | inList _ hoperand hvalues =>
      rw [Expr.render, Expr.render, forall₂_isEmpty_eq hvalues]
      refine .ite Iff.rfl (fun _ => .ok ?_) fun _ => ?_
      · exact (Paired.lead _ (isSeparator_emptyInText negated)).of_any.to_any
      · refine (Expr.render_like P hnested context operand _ hoperand).bind fun _ _ hoperand => ?_
        refine (Expr.renderList_like P hnested context values _ hvalues).bind
          fun _ _ hsqls => .ok ?_
        have hnot := (hoperand.lit " " rfl).also (.plain (isPlainText_notText negated))
        exact (hnot.lit "IN " rfl).also (Paired.commas hsqls).enclosed
  | .inNested operand nested negated => by
    intro _ h
    cases h with
    | inNested _ hoperand hnest =>
      rw [Expr.render, Expr.render]
      refine (Expr.render_like P hnested context operand _ hoperand).bind fun _ _ hoperand => ?_
      refine (Nested.render_like P hnested context nested _ hnest).bind fun _ _ hsql => .ok ?_
      have hnot := (hoperand.lit " " rfl).also (.plain (isPlainText_notText negated))
      exact (hnot.lit "IN " rfl).also hsql.enclosed
  | .isNull operand negated => by
    intro _ h
    cases h with
    | isNull _ hoperand =>
      rw [Expr.render, Expr.render]
      refine (Expr.render_like P hnested context operand _ hoperand).bind fun _ _ hoperand => .ok ?_
      have hnot := (hoperand.lit " IS " rfl).also (.plain (isPlainText_notText negated))
      exact (hnot.lit "NULL" rfl).to_any
  | .existsIn nested negated => by
    intro _ h
    cases h with
    | existsIn _ hnest =>
      rw [Expr.render, Expr.render]
      refine (Nested.render_like P hnested context nested _ hnest).bind fun _ _ hsql => .ok ?_
      have hnot : Paired P .clear .clear (notText negated) (notText negated) :=
        .plain (isPlainText_notText negated)
      exact (hnot.lit "EXISTS " rfl).also hsql.enclosed
  | .like operand pattern caseSensitive negated => by
    intro _ h
    cases h with
    | like _ _ hoperand hpattern =>
      rw [Expr.render, Expr.render]
      refine (Dialect.likeText_like P caseSensitive).bind fun _ _ hword => ?_
      refine (Expr.render_like P hnested context operand _ hoperand).bind fun _ _ hoperand => ?_
      refine (Expr.render_like P hnested context pattern _ hpattern).bind fun _ _ hpattern => .ok ?_
      have hnot := ((hoperand.hooked (.same .likeOperand)).lit " " rfl).also
        (.plain (isPlainText_notText negated))
      exact ((hnot.to_any.also hword).lit " " rfl).also hpattern
  | .condition connective terms => by
    intro _ h
    cases h with
    | condition _ hterms =>
      rw [Expr.render, Expr.render, forall₂_isEmpty_eq hterms]
      refine .ite Iff.rfl (fun _ => .error (P.blame _)) fun _ => ?_
      exact (Expr.renderTerms_like P hnested context connective terms _ hterms).bind
        fun _ _ hsqls => .ok (.join connective.isSeparator_sql hsqls)
  | .parenthesized inner => by
    intro _ h
    cases h with
    | parenthesized hinner =>
      rw [Expr.render, Expr.render]
      exact (Expr.render_like P hnested context inner _ hinner).bind
        fun _ _ hsql => .ok hsql.enclosed

theorem Expr.renderList_like (P : Pairing L E dialect) (hnested : P.Nests nested nested')
    (context : Context) : ∀ (exprs exprs' : List Expr), List.Forall₂ (Expr.Like L) exprs exprs' →
      Matched E (List.Forall₂ (Paired P .clear .any))
        (Expr.renderList ⟨dialect, nested⟩ context exprs)
        (Expr.renderList ⟨dialect, nested'⟩ context exprs')
  | [] => by
    rintro _ ⟨⟩
    rw [Expr.renderList, Expr.renderList]
    exact .ok .nil
  | expr :: exprs => by
    rintro _ (_ | ⟨hexpr, hexprs⟩)
    rw [Expr.renderList, Expr.renderList]
    refine (Expr.render_like P hnested context expr _ hexpr).bind fun _ _ hsql => ?_
    exact (Expr.renderList_like P hnested context exprs _ hexprs).bind
      fun _ _ hsqls => .ok (.cons hsql hsqls)

theorem Expr.renderTerms_like (P : Pairing L E dialect) (hnested : P.Nests nested nested')
    (context : Context) (connective : Connective) :
    ∀ (terms terms' : List Expr), List.Forall₂ (Expr.Like L) terms terms' →
      Matched E (List.Forall₂ (Paired P .clear .any))
        (Expr.renderTerms ⟨dialect, nested⟩ context connective terms)
        (Expr.renderTerms ⟨dialect, nested'⟩ context connective terms')
  | [] => by
    rintro _ ⟨⟩
    rw [Expr.renderTerms, Expr.renderTerms]
    exact .ok .nil
  | term :: terms => by
    rintro _ (_ | ⟨hterm, hterms⟩)
    rw [Expr.renderTerms, Expr.renderTerms, hterm.isOr_eq]
    refine (Expr.render_like P hnested context term _ hterm).bind fun _ _ hsql => ?_
    exact (Expr.renderTerms_like P hnested context connective terms _ hterms).bind
      fun _ _ hsqls => .ok (.cons (hsql.parensIf _) hsqls)

theorem Nested.render_like (P : Pairing L E dialect) (hnested : P.Nests nested nested')
    (context : Context) : ∀ (source source' : Nested), Nested.Like L source source' →
      Matched E (Paired P .clear .any) (source.render ⟨dialect, nested⟩ context)
        (source'.render ⟨dialect, nested'⟩ context)
  | .plan plan => by
    intro _ h
    cases h with
    | plan hplan =>
      rw [Nested.render, Nested.render]
      exact (hnested plan _ hplan).bind fun _ _ hsql => .ok (P.retag _ hsql)
  | .raw raw => by
    intro _ h
    cases h with
    | raw hraw =>
      rw [Nested.render, Nested.render]
      exact .ok (P.raw _ hraw)
  | .query query => by
    intro _ h
    cases h with
    | query hquery =>
      rw [Nested.render, Nested.render]
      exact Query.render_like P hnested context query _ hquery

theorem Expr.renderClause_like (P : Pairing L E dialect) (hnested : P.Nests nested nested')
    (context : Context) {keyword : String} (hkeyword : isSeparator keyword.toList = true) :
    ∀ (expr expr' : Option Expr), Option.Rel (Expr.Like L) expr expr' →
      Matched E (Paired P .any .any) (Expr.renderClause ⟨dialect, nested⟩ context keyword expr)
        (Expr.renderClause ⟨dialect, nested'⟩ context keyword expr')
  | none => by
    rintro _ ⟨⟩
    rw [Expr.renderClause, Expr.renderClause]
    exact .ok (.empty .any)
  | some expr => by
    rintro _ ⟨hexpr⟩
    rw [Expr.renderClause, Expr.renderClause]
    exact (Expr.render_like P hnested context expr _ hexpr).bind
      fun _ _ hsql => .ok ((Paired.lead keyword hkeyword).also hsql)

theorem Expr.renderListClause_like (P : Pairing L E dialect) (hnested : P.Nests nested nested')
    (context : Context) {keyword : String} (hkeyword : isSeparator keyword.toList = true) :
    ∀ (exprs exprs' : Option (List Expr)), Option.Rel (List.Forall₂ (Expr.Like L)) exprs exprs' →
      Matched E (Paired P .any .any)
        (Expr.renderListClause ⟨dialect, nested⟩ context keyword exprs)
        (Expr.renderListClause ⟨dialect, nested'⟩ context keyword exprs')
  | none => by
    rintro _ ⟨⟩
    rw [Expr.renderListClause, Expr.renderListClause]
    exact .ok (.empty .any)
  | some exprs => by
    rintro _ ⟨hexprs⟩
    rw [Expr.renderListClause, Expr.renderListClause]
    exact (Expr.renderList_like P hnested context exprs _ hexprs).bind
      fun _ _ hsqls => .ok ((Paired.lead keyword hkeyword).also (.commas hsqls))

theorem SelectItem.render_like (P : Pairing L E dialect) (hnested : P.Nests nested nested')
    (context : Context) : ∀ (item item' : SelectItem), SelectItem.Like L item item' →
      Matched E (Paired P .clear .any) (item.render ⟨dialect, nested⟩ context)
        (item'.render ⟨dialect, nested'⟩ context)
  | .wildcard none => by
    rintro _ ⟨⟨⟩⟩
    rw [SelectItem.render, SelectItem.render]
    exact .ok (Paired.lead wildcard rfl).of_any.to_any
  | .wildcard (some qualifier) => by
    rintro _ ⟨⟨hqualifier⟩⟩
    rw [SelectItem.render, SelectItem.render]
    exact .ok (((Paired.quotePath hqualifier).lit "." rfl).lit wildcard rfl).to_any
  | .column column => by
    intro _ h
    cases h with
    | column hcolumn =>
      rw [SelectItem.render, SelectItem.render]
      exact .ok (.quoteColumn hcolumn)
  | .expr expr label => by
    intro _ h
    cases h with
    | expr hexpr hlabel =>
      rw [SelectItem.render, SelectItem.render, hexpr.isBarePredicate_eq]
      exact (Expr.render_like P hnested context expr _ hexpr).bind
        fun _ _ hsql => .ok ((hsql.parensIf _).also (.aliasText hlabel))

theorem SelectItem.renderList_like (P : Pairing L E dialect) (hnested : P.Nests nested nested')
    (context : Context) :
    ∀ (items items' : List SelectItem), List.Forall₂ (SelectItem.Like L) items items' →
      Matched E (List.Forall₂ (Paired P .clear .any))
        (SelectItem.renderList ⟨dialect, nested⟩ context items)
        (SelectItem.renderList ⟨dialect, nested'⟩ context items')
  | [] => by
    rintro _ ⟨⟩
    rw [SelectItem.renderList, SelectItem.renderList]
    exact .ok .nil
  | item :: items => by
    rintro _ (_ | ⟨hitem, hitems⟩)
    rw [SelectItem.renderList, SelectItem.renderList]
    refine (SelectItem.render_like P hnested context item _ hitem).bind fun _ _ hsql => ?_
    exact (SelectItem.renderList_like P hnested context items _ hitems).bind
      fun _ _ hsqls => .ok (.cons hsql hsqls)

theorem TableExpr.render_like (P : Pairing L E dialect) (hnested : P.Nests nested nested')
    (context : Context) {hint : Option String}
    (hhint : Paired P .any .any (Dialect.lockSuffix hint) (Dialect.lockSuffix hint)) :
    ∀ (table table' : TableExpr), TableExpr.Like L table table' →
      Matched E (Paired P .clear .any) (table.render ⟨dialect, nested⟩ context hint)
        (table'.render ⟨dialect, nested'⟩ context hint)
  | .table table => by
    intro _ h
    cases h with
    | table htable =>
      rw [TableExpr.render, TableExpr.render]
      exact .ok ((Paired.quoteTable htable).also hhint)
  | .derived source label => by
    intro _ h
    cases h with
    | derived hsource hlabel =>
      rw [TableExpr.render, TableExpr.render]
      refine .ite Iff.rfl (fun _ => .error (P.blame _)) fun _ => ?_
      refine (Nested.render_like P hnested context source _ hsource).bind fun _ _ hsql => .ok ?_
      exact (hsql.parens.lit " AS " rfl).of_any.also (P.name hlabel)
  | .joined first joins => by
    intro _ h
    cases h with
    | joined hfirst hjoins =>
      rw [TableExpr.render, TableExpr.render]
      refine (TableExpr.render_like P hnested context hhint first _ hfirst).bind fun _ _ hsql => ?_
      exact (JoinExpr.renderList_like P hnested context.joining joins _ hjoins).bind
        fun _ _ hrest => .ok (hsql.also hrest)
  | .raw raw => by
    intro _ h
    cases h with
    | raw hraw =>
      rw [TableExpr.render, TableExpr.render]
      exact .ite Iff.rfl (fun _ => .error (P.blame _)) fun _ => .ok (P.raw _ hraw)

theorem TableExpr.renderClause_like (P : Pairing L E dialect) (hnested : P.Nests nested nested')
    (context : Context) {hint : Option String}
    (hhint : Paired P .any .any (Dialect.lockSuffix hint) (Dialect.lockSuffix hint)) :
    ∀ (table table' : Option TableExpr), Option.Rel (TableExpr.Like L) table table' →
      Matched E (Paired P .any .any) (TableExpr.renderClause ⟨dialect, nested⟩ context hint table)
        (TableExpr.renderClause ⟨dialect, nested'⟩ context hint table')
  | none => by
    rintro _ ⟨⟩
    rw [TableExpr.renderClause, TableExpr.renderClause]
    exact .ok (.empty .any)
  | some table => by
    rintro _ ⟨htable⟩
    rw [TableExpr.renderClause, TableExpr.renderClause]
    exact (TableExpr.render_like P hnested context hhint table _ htable).bind
      fun _ _ hsql => .ok ((Paired.lead " FROM " rfl).also hsql)

theorem JoinExpr.render_like (P : Pairing L E dialect) (hnested : P.Nests nested nested')
    (context : Context) : ∀ (join join' : JoinExpr), JoinExpr.Like L join join' →
      Matched E (Paired P .any .any) (join.render ⟨dialect, nested⟩ context)
        (join'.render ⟨dialect, nested'⟩ context)
  | ⟨kind, target, on⟩ => by
    rintro _ ⟨_, htarget, hon⟩
    rw [JoinExpr.render, JoinExpr.render]
    refine (TableExpr.render_like P hnested context (.empty .any) target _ htarget).bind
      fun _ _ htarget => ?_
    refine (Expr.renderClause_like P hnested context (isSeparator_literal (by decide)) on _ hon).bind
      fun _ _ hon => .ok ?_
    have hkind := Paired.lead (P := P) kind.sql kind.isSeparator_sql
    exact ((hkind.lit " " rfl).also htarget).also hon

theorem JoinExpr.renderList_like (P : Pairing L E dialect) (hnested : P.Nests nested nested')
    (context : Context) :
    ∀ (joins joins' : List JoinExpr), List.Forall₂ (JoinExpr.Like L) joins joins' →
      Matched E (Paired P .any .any) (JoinExpr.renderList ⟨dialect, nested⟩ context joins)
        (JoinExpr.renderList ⟨dialect, nested'⟩ context joins')
  | [] => by
    rintro _ ⟨⟩
    rw [JoinExpr.renderList, JoinExpr.renderList]
    exact .ok (.empty .any)
  | join :: joins => by
    rintro _ (_ | ⟨hjoin, hjoins⟩)
    rw [JoinExpr.renderList, JoinExpr.renderList]
    refine (JoinExpr.render_like P hnested context join _ hjoin).bind fun _ _ hsql => ?_
    exact (JoinExpr.renderList_like P hnested context joins _ hjoins).bind
      fun _ _ hrest => .ok (((Paired.lead " " rfl).to_any.also hsql).also hrest)

theorem SortKey.render_like (P : Pairing L E dialect) (hnested : P.Nests nested nested')
    (context : Context) : ∀ (key key' : SortKey), SortKey.Like L key key' →
      Matched E (Paired P .clear .any) (key.render ⟨dialect, nested⟩ context)
        (key'.render ⟨dialect, nested'⟩ context)
  | ⟨expr, direction⟩ => by
    rintro _ ⟨_, hexpr⟩
    rw [SortKey.render, SortKey.render]
    refine (Expr.render_like P hnested context expr _ hexpr).bind fun _ _ hsql => .ok ?_
    cases direction with
    | none => exact hsql
    | some direction => exact ((hsql.lit " " rfl).lit _ direction.isSeparator_sql).to_any

theorem SortKey.renderList_like (P : Pairing L E dialect) (hnested : P.Nests nested nested')
    (context : Context) :
    ∀ (keys keys' : List SortKey), List.Forall₂ (SortKey.Like L) keys keys' →
      Matched E (List.Forall₂ (Paired P .clear .any))
        (SortKey.renderList ⟨dialect, nested⟩ context keys)
        (SortKey.renderList ⟨dialect, nested'⟩ context keys')
  | [] => by
    rintro _ ⟨⟩
    rw [SortKey.renderList, SortKey.renderList]
    exact .ok .nil
  | key :: keys => by
    rintro _ (_ | ⟨hkey, hkeys⟩)
    rw [SortKey.renderList, SortKey.renderList]
    refine (SortKey.render_like P hnested context key _ hkey).bind fun _ _ hsql => ?_
    exact (SortKey.renderList_like P hnested context keys _ hkeys).bind
      fun _ _ hsqls => .ok (.cons hsql hsqls)

theorem SortKey.renderClause_like (P : Pairing L E dialect) (hnested : P.Nests nested nested')
    (context : Context) :
    ∀ (keys keys' : Option (List SortKey)), Option.Rel (List.Forall₂ (SortKey.Like L)) keys keys' →
      Matched E (Paired P .any .any) (SortKey.renderClause ⟨dialect, nested⟩ context keys)
        (SortKey.renderClause ⟨dialect, nested'⟩ context keys')
  | none => by
    rintro _ ⟨⟩
    rw [SortKey.renderClause, SortKey.renderClause]
    exact .ok (.empty .any)
  | some keys => by
    rintro _ ⟨hkeys⟩
    rw [SortKey.renderClause, SortKey.renderClause]
    exact (SortKey.renderList_like P hnested context keys _ hkeys).bind
      fun _ _ hsqls => .ok ((Paired.lead " ORDER BY " rfl).also (.commas hsqls))

theorem Select.render_like (P : Pairing L E dialect) (hnested : P.Nests nested nested')
    (context : Context) : ∀ (select select' : Select), Select.Like L select select' →
      Matched E (Paired P .clear .any) (select.render ⟨dialect, nested⟩ context)
        (select'.render ⟨dialect, nested'⟩ context)
  | { distinct, items, source, filter, groupBy, having, orderBy, page, lock } => by
    rintro _ ⟨_, _, _, hitems, hsource, hfilter, hgroupBy, hhaving, horderBy, hlock⟩
    rw [Select.render, Select.render, ← rel_isSome_eq horderBy]
    refine (SelectItem.renderList_like P hnested _ items _ hitems).bind fun _ _ hitems => ?_
    refine (Dialect.lockAt_like P .tableHint hlock).bind fun hint _ ⟨heq, hhint⟩ => ?_
    cases heq
    refine (TableExpr.renderClause_like P hnested _ hhint source _ hsource).bind
      fun _ _ hsource => ?_
    refine (Expr.renderClause_like P hnested _ (isSeparator_literal (by decide)) filter _
      hfilter).bind fun _ _ hfilter => ?_
    refine (Expr.renderListClause_like P hnested _ (isSeparator_literal (by decide)) groupBy _
      hgroupBy).bind fun _ _ hgroups => ?_
    refine (Expr.renderClause_like P hnested _ (isSeparator_literal (by decide)) having _
      hhaving).bind fun _ _ hhaving => ?_
    refine (SortKey.renderClause_like P hnested _ orderBy _ horderBy).bind fun _ _ horder => ?_
    refine (Dialect.lockAt_like P .suffix hlock).bind fun suffix _ ⟨heq, hsuffix⟩ => ?_
    cases heq
    have hdistinct : Paired P .clear .clear (distinctText distinct) (distinctText distinct) :=
      .plain (isPlainText_distinctText distinct)
    have hhead := ((Paired.lead "SELECT " rfl).of_any.also hdistinct).also
      (.same (.topText page.limit))
    have hclauses := (hhead.also (.commas hitems)).also hsource |>.also hfilter |>.also hgroups
      |>.also hhaving |>.also horder
    exact .ok ((hclauses.also (.same (.pageText orderBy.isSome page))).also hsuffix)

theorem Query.render_like (P : Pairing L E dialect) (hnested : P.Nests nested nested')
    (context : Context) : ∀ (query query' : Query), Query.Like L query query' →
      Matched E (Paired P .clear .any) (query.render ⟨dialect, nested⟩ context)
        (query'.render ⟨dialect, nested'⟩ context)
  | .select select => by
    intro _ h
    cases h with
    | select hselect =>
      rw [Query.render, Query.render]
      exact Select.render_like P hnested context select _ hselect
  | .union left right all orderBy page => by
    intro _ h
    cases h with
    | union _ _ hleft hright horderBy =>
      rw [Query.render, Query.render, ← hleft.isUnion_eq, ← rel_isSome_eq horderBy]
      refine (Query.render_like P hnested context left _ hleft).bind fun first first' hfirst => ?_
      refine (Query.render_like P hnested _ right _ hright).bind fun _ _ hsecond => ?_
      refine (SortKey.renderClause_like P hnested _ orderBy _ horderBy).bind
        fun _ _ horder => .ok ?_
      have hbranch : Paired P .clear .any
          (if left.isUnion then first else dialect.wrapBranch first)
          (if left.isUnion then first' else dialect.wrapBranch first') := by
        split
        · exact hfirst
        · exact hfirst.wrapBranch
      have hbranches := (hbranch.lit _ (isSeparator_unionText all)).also hsecond.wrapBranch
      exact (hbranches.also horder).also (.same (.unionPageText orderBy.isSome page))

end

end Trees

end QueryCompiler
