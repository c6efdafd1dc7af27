import Mathlib.Data.List.Induction
import Mathlib.Data.Nat.Digits.Defs
import QueryCompiler.Proofs.Lexing

/-! # The grammar of fragments

    column := name ('.' name)* ('->' step)* (AS name)? | (name '.')* '*'
    table  := name ('.' name)* (AS name)?

The grammar is a relation between kinds of tokens and what they write. A fragment is read as a reference
exactly if its tokens write that reference; every other fragment is refused, with an error that shows
some characters of it (`fragments_follow_grammar`).

* `WritesColumn`, `WritesTable`: the grammar.
* `readPath_sound`, `readPath_complete` and so on: what each reader takes off the front of the tokens.
-/

namespace QueryCompiler
set_option autoImplicit false

/-! ## Words -/

/-- The word that announces an alias, in small letters and capitals. -/
def asWords : List Name := ["as", "aS", "As", "AS"]

/-- A word of ASCII digits, and the number that they write. -/
structure IsDecimal (word : Name) (n : Nat) : Prop where
  nonempty : word ≠ ""
  digits : ∀ c ∈ word.toList, '0' ≤ c ∧ c ≤ '9'
  value : n = Nat.ofDigits 10 (word.toList.reverse.map fun c => c.toNat - '0'.toNat)

namespace TokenKind

/-- A name is any word except a bare `as`. -/
inductive IsName : TokenKind → Name → Prop where
  | quoted (name : Name) : IsName (.word name true) name
  | bare {name : Name} (has : name ∉ asWords) : IsName (.word name false) name

/-- A step is any word. A bare number below `2 ^ 64` is a position and all else a key. -/
inductive IsStep : TokenKind → JsonStep → Prop where
  | quoted (word : Name) : IsStep (.word word true) (.key word)
  | position {word : Name} {n : Nat} (hword : IsDecimal word n) (hn : n < 2 ^ 64) :
    IsStep (.word word false) (.index n)
  | bare {word : Name} (hword : ∀ n, IsDecimal word n → 2 ^ 64 ≤ n) :
    IsStep (.word word false) (.key word)

end TokenKind

/-! ## References -/

/-- Names with dots between them; with `stars`, the last may be a star. -/
inductive WritesPath (stars : Bool) : List TokenKind → Path → Prop where
  | name {kind : TokenKind} {name : Name} (hname : kind.IsName name) : WritesPath stars [kind] [name]
  | star (hstars : stars = true) : WritesPath stars [.star] ["*"]
  | dot {kind : TokenKind} {name : Name} {kinds : List TokenKind} {path : Path}
    (hname : kind.IsName name) (hpath : WritesPath stars kinds path) :
    WritesPath stars (kind :: .dot :: kinds) (name :: path)

inductive WritesSteps : List TokenKind → List JsonStep → Prop where
  | nil : WritesSteps [] []
  | arrow {kind : TokenKind} {step : JsonStep} {kinds : List TokenKind} {steps : List JsonStep}
    (hstep : kind.IsStep step) (hsteps : WritesSteps kinds steps) :
    WritesSteps (.arrow :: kind :: kinds) (step :: steps)

inductive WritesAlias : List TokenKind → Option Name → Prop where
  | absent : WritesAlias [] none
  | label {word : Name} {kind : TokenKind} {name : Name} (hword : word ∈ asWords)
    (hname : kind.IsName name) : WritesAlias [.word word false, kind] (some name)

/-- Kinds of tokens that write a column. Nothing follows a path that ends in `*`. -/
inductive WritesColumn : List TokenKind → ColumnRef → Prop where
  | mk {ofPath ofJson ofLabel : List TokenKind} {path : Path} {json : List JsonStep}
    {label : Option Name} (hpath : WritesPath true ofPath path) (hjson : WritesSteps ofJson json)
    (hlabel : WritesAlias ofLabel label)
    (hwildcard : path.getLast? = some "*" → ofJson = [] ∧ ofLabel = []) :
    WritesColumn (ofPath ++ ofJson ++ ofLabel) ⟨path, json, label⟩

/-- Kinds of tokens that write a table. -/
inductive WritesTable : List TokenKind → TableName → Prop where
  | mk {ofPath ofLabel : List TokenKind} {path : Path} {label : Option Name}
    (hpath : WritesPath false ofPath path) (hlabel : WritesAlias ofLabel label) :
    WritesTable (ofPath ++ ofLabel) ⟨path, label⟩

/-! ## Reading words -/

theorem toNat_toLower (c : Char) :
    c.toLower.toNat = if 65 ≤ c.toNat ∧ c.toNat ≤ 90 then c.toNat + 32 else c.toNat := by
  have hcapital : (c.val ≥ 'A'.val ∧ c.val ≤ 'Z'.val) ↔ 65 ≤ c.toNat ∧ c.toNat ≤ 90 := by
    rw [ge_iff_le, UInt32.le_iff_toNat_le, UInt32.le_iff_toNat_le]
    rfl
  unfold Char.toLower
  split
  · next h =>
    have hsum : (c.val + 32).toNat = (c.toNat + 32) % 2 ^ 32 := UInt32.toNat_add c.val 32
    rw [hcapital] at h
    rw [if_pos h]
    exact hsum.trans (Nat.mod_eq_of_lt (by omega))
  · next h =>
    rw [hcapital] at h
    rw [if_neg h]

theorem toLower_eq_iff {c small capital : Char} (hsmall : 97 ≤ small.toNat ∧ small.toNat ≤ 122)
    (hcapital : small.toNat = capital.toNat + 32) :
    c.toLower = small ↔ c = small ∨ c = capital := by
  rw [← Char.toNat_inj, ← Char.toNat_inj, ← Char.toNat_inj, toNat_toLower]
  split <;> omega

theorem toLower_eq_as_iff (word : Name) : word.toLower = "as" ↔ word ∈ asWords := by
  have ha : ∀ c : Char, c.toLower = 'a' ↔ c = 'a' ∨ c = 'A' :=
    fun c => toLower_eq_iff (by decide) rfl
  have hs : ∀ c : Char, c.toLower = 's' ↔ c = 's' ∨ c = 'S' :=
    fun c => toLower_eq_iff (by decide) rfl
  have hlower : word.toLower = "as" ↔ word.toList.map Char.toLower = ['a', 's'] := by
    have hmap : word.toLower = word.map Char.toLower := rfl
    rw [← String.toList_inj, hmap, String.toList_map]
    rfl
  have hwords : word ∈ asWords ↔
      word.toList ∈ [['a', 's'], ['a', 'S'], ['A', 's'], ['A', 'S']] :=
    (List.mem_map_of_injective fun _ _ => String.toList_inj.1).symm
  rw [hlower, hwords]
  rcases word.toList with _ | ⟨c, _ | ⟨d, _ | ⟨e, cs⟩⟩⟩
  · simp
  · simp
  · simp only [List.map_cons, List.map_nil, List.cons.injEq, ha, hs, and_true, List.mem_cons,
      List.not_mem_nil, or_false]
    rw [or_and_right, and_or_left, and_or_left, or_assoc]
  · simp

namespace TokenKind

theorem isAs_bare (word : Name) : (TokenKind.word word false).isAs = true ↔ word ∈ asWords := by
  rw [isAs, decide_eq_true_eq, toLower_eq_as_iff]

theorem isAs_iff {kind : TokenKind} :
    kind.isAs = true ↔ ∃ word ∈ asWords, kind = .word word false := by
  constructor
  · intro h
    cases kind with
    | word word quoted =>
      cases quoted with
      | true => cases h
      | false => exact ⟨word, (isAs_bare word).1 h, rfl⟩
    | dot | star | arrow | invalid => cases h
  · rintro ⟨word, hword, rfl⟩
    exact (isAs_bare word).2 hword

theorem name?_iff {kind : TokenKind} {name : Name} : kind.name? = some name ↔ kind.IsName name := by
  constructor
  · intro h
    obtain ⟨quoted, rfl⟩ := name?_eq h
    cases quoted with
    | true => exact .quoted name
    | false =>
      refine .bare fun hword => ?_
      rw [name?, if_pos ((isAs_bare name).2 hword)] at h
      cases h
  · intro h
    cases h with
    | quoted => rfl
    | bare hword => rw [name?, if_neg (mt (isAs_bare name).1 hword)]

end TokenKind

theorem ofDigits_eq (cs : List Char) :
    ofDigits cs = Nat.ofDigits 10 (cs.reverse.map fun c => c.toNat - '0'.toNat) := by
  induction cs using List.reverseRecOn with
  | nil => rfl
  | append_singleton cs c ih =>
    rw [ofDigits, List.foldl_append, List.foldl_cons, List.foldl_nil, ← ofDigits, ih,
      List.reverse_append, List.reverse_singleton, List.singleton_append, List.map_cons,
      Nat.ofDigits_cons]
    exact Nat.add_comm _ _

namespace Fragment

theorem position?_iff {word : Name} {n : Nat} :
    position? word = some n ↔ IsDecimal word n ∧ n < 2 ^ 64 := by
  have hbound : twoPow 64 = 2 ^ 64 := rfl
  have hdigit : ∀ c : Char, c.isDigit = true ↔ '0' ≤ c ∧ c ≤ '9' := by
    intro c
    rw [Char.isDigit_iff_toNat]
    rfl
  have hempty : word.toList = [] ↔ word = "" := by simp
  simp only [position?, Option.ite_none_right_eq_some, Bool.and_eq_true, decide_eq_true_eq,
    Option.some.injEq, Bool.not_eq_true', List.isEmpty_eq_false_iff, List.all_eq_true, hdigit,
    hbound, ofDigits_eq, ne_eq, hempty]
  constructor
  · rintro ⟨⟨⟨hne, hdigits⟩, hlt⟩, rfl⟩
    exact ⟨⟨hne, hdigits, rfl⟩, hlt⟩
  · rintro ⟨⟨hne, hdigits, rfl⟩, hlt⟩
    exact ⟨⟨⟨hne, hdigits⟩, hlt⟩, rfl⟩

theorem stepOf_isStep (word : Name) (quoted : Bool) :
    (TokenKind.word word quoted).IsStep (stepOf word quoted) := by
  unfold stepOf
  cases quoted with
  | true => exact .quoted word
  | false =>
    cases hposition : position? word with
    | some n =>
      obtain ⟨hword, hn⟩ := position?_iff.1 hposition
      exact .position hword hn
    | none =>
      refine .bare fun n hn => Nat.le_of_not_lt fun hlt => ?_
      rw [position?_iff.2 ⟨hn, hlt⟩] at hposition
      cases hposition

theorem eq_stepOf {kind : TokenKind} {step : JsonStep} (h : kind.IsStep step) :
    ∃ word quoted, kind = .word word quoted ∧ stepOf word quoted = step := by
  cases h with
  | quoted word => exact ⟨word, true, rfl, rfl⟩
  | @position word n hword hn =>
    refine ⟨word, false, rfl, ?_⟩
    unfold stepOf
    rw [position?_iff.2 ⟨hword, hn⟩]
  | @bare word hword =>
    refine ⟨word, false, rfl, ?_⟩
    unfold stepOf
    cases hposition : position? word with
    | none => rfl
    | some n =>
      obtain ⟨hn, hlt⟩ := position?_iff.1 hposition
      exact absurd (hword n hn) (Nat.not_le_of_lt hlt)

/-! ## Readers -/

theorem readPath_sound (input : String) (stars : Bool) (tokens : List Token) :
    Ensures (readPath input stars tokens) fun result =>
      ∃ front, tokens = front ++ result.2 ∧ WritesPath stars (front.map (·.kind)) result.1 := by
  fun_induction readPath input stars tokens with
  | case1 => exact .error
  | case2 token rest hstar =>
    obtain ⟨hstars, hkind⟩ : stars = true ∧ token.kind = .star := by simpa using hstar
    refine .ok ⟨[token], rfl, ?_⟩
    rw [List.map_singleton, hkind]
    exact .star hstars
  | case3 token rest hstar hname => exact .error
  | case4 token hstar name hname span rest ih =>
    refine ih.map ?_
    rintro ⟨path, rest'⟩ ⟨front, hfront, hpath⟩
    refine ⟨token :: ⟨.dot, span⟩ :: front, ?_, .dot (TokenKind.name?_iff.1 hname) hpath⟩
    rw [hfront]
    rfl
  | case5 token hstar name hname rest hdot =>
    exact .ok ⟨[token], rfl, .name (TokenKind.name?_iff.1 hname)⟩

/-- What may stand behind a part: nothing that starts with a token of the kind that goes on with it. -/
def NotAhead (kind : TokenKind) (tokens : List Token) : Prop :=
  ∀ token ∈ tokens.head?, token.kind ≠ kind

theorem star_ne_name {token : Token} {name : Name} (hname : token.kind.IsName name) (stars : Bool) :
    ¬((stars && token.kind = .star) = true) := by
  intro h
  obtain ⟨-, hstar⟩ : stars = true ∧ token.kind = .star := by simpa using h
  rw [hstar] at hname
  cases hname

theorem readPath_name_end (input : String) (stars : Bool) {token : Token} {name : Name}
    (hname : token.kind.IsName name) {rest : List Token} (hrest : NotAhead .dot rest) :
    readPath input stars (token :: rest) = .ok ([name], rest) := by
  rw [readPath, if_neg (star_ne_name hname stars), TokenKind.name?_iff.2 hname]
  cases rest with
  | nil => rfl
  | cons next rest =>
    obtain ⟨kind, span⟩ := next
    have hkind : kind ≠ .dot := hrest _ rfl
    cases kind with
    | dot => exact (hkind rfl).elim
    | word | star | arrow | invalid => rfl

theorem readPath_name_dot (input : String) (stars : Bool) {token : Token} {name : Name}
    (hname : token.kind.IsName name) (span : Span) (rest : List Token) :
    readPath input stars (token :: ⟨.dot, span⟩ :: rest) =
      (readPath input stars rest).map fun (path, rest) => (name :: path, rest) := by
  rw [readPath, if_neg (star_ne_name hname stars), TokenKind.name?_iff.2 hname]

theorem readPath_complete (input : String) {stars : Bool} {kinds : List TokenKind} {path : Path}
    (h : WritesPath stars kinds path) {rest : List Token} (hrest : NotAhead .dot rest) :
    ∀ {front : List Token}, front.map (·.kind) = kinds →
      readPath input stars (front ++ rest) = .ok (path, rest) := by
  induction h with
  | name hname =>
    intro front hfront
    obtain ⟨token, rfl, rfl⟩ := List.map_eq_singleton_iff.1 hfront
    exact readPath_name_end input stars hname hrest
  | star hstars =>
    intro front hfront
    obtain ⟨token, rfl, hkind⟩ := List.map_eq_singleton_iff.1 hfront
    rw [List.singleton_append, readPath, if_pos (by simp [hstars, hkind])]
    rfl
  | dot hname hpath ih =>
    intro front hfront
    obtain ⟨token, behind, rfl, rfl, hbehind⟩ := List.map_eq_cons_iff.1 hfront
    obtain ⟨⟨kind, span⟩, further, rfl, rfl, hfurther⟩ := List.map_eq_cons_iff.1 hbehind
    rw [List.cons_append, List.cons_append, readPath_name_dot input stars hname, ih hfurther]
    rfl

theorem readSteps_sound (input : String) (tokens : List Token) :
    Ensures (readSteps input tokens) fun result =>
      ∃ front, tokens = front ++ result.2 ∧ WritesSteps (front.map (·.kind)) result.1 := by
  fun_induction readSteps input tokens with
  | case1 span word quoted span' rest ih =>
    refine ih.map ?_
    rintro ⟨steps, rest'⟩ ⟨front, hfront, hsteps⟩
    refine ⟨⟨.arrow, span⟩ :: ⟨.word word quoted, span'⟩ :: front, ?_,
      .arrow (stepOf_isStep word quoted) hsteps⟩
    rw [hfront]
    rfl
  | case2 => exact .error
  | case3 rest => exact .ok ⟨[], rfl, .nil⟩

theorem readSteps_complete (input : String) {kinds : List TokenKind} {steps : List JsonStep}
    (h : WritesSteps kinds steps) {rest : List Token} (hrest : NotAhead .arrow rest) :
    ∀ {front : List Token}, front.map (·.kind) = kinds →
      readSteps input (front ++ rest) = .ok (steps, rest) := by
  induction h with
  | nil =>
    intro front hfront
    obtain rfl := List.map_eq_nil_iff.1 hfront
    rw [List.nil_append]
    refine readSteps_of_no_arrow input ?_
    rintro span behind rfl
    exact hrest _ rfl rfl
  | arrow hstep hsteps ih =>
    intro front hfront
    obtain ⟨⟨kind, span⟩, behind, rfl, rfl, hbehind⟩ := List.map_eq_cons_iff.1 hfront
    obtain ⟨⟨kind, span'⟩, further, rfl, rfl, hfurther⟩ := List.map_eq_cons_iff.1 hbehind
    obtain ⟨word, quoted, rfl, rfl⟩ := eq_stepOf hstep
    rw [List.cons_append, List.cons_append, readSteps, ih hfurther]
    rfl

theorem readAlias_sound (input : String) (tokens : List Token) :
    Ensures (readAlias input tokens) fun result =>
      ∃ front, tokens = front ++ result.2 ∧
        WritesAlias (front.map (·.kind)) (result.1.map (·.1)) ∧
        ∀ label ∈ result.1, ∃ token ∈ front, token.span = label.2 := by
  unfold readAlias
  split
  · exact .ok ⟨[], rfl, .absent, nofun⟩
  · next token rest =>
    refine .ite (fun has => ?_) fun _ => .ok ⟨[], rfl, .absent, nofun⟩
    obtain ⟨word, hword, hkind⟩ := TokenKind.isAs_iff.1 has
    split
    · exact .error
    · next labelToken rest =>
      split
      · exact .error
      · next name hname =>
        refine .ok ⟨[token, labelToken], rfl, ?_, ?_⟩
        · rw [List.map_cons, List.map_singleton, hkind]
          exact .label hword (TokenKind.name?_iff.1 hname)
        · rintro _ ⟨⟩
          exact ⟨labelToken, by simp, rfl⟩

/-- An alias at the end of a fragment. -/
theorem readAlias_complete (input : String) {tokens : List Token} {label : Option Name}
    (h : WritesAlias (tokens.map (·.kind)) label) :
    ∃ found, readAlias input tokens = .ok (found, []) ∧ found.map (·.1) = label := by
  generalize hkinds : tokens.map (·.kind) = kinds at h
  cases h with
  | absent =>
    obtain rfl := List.map_eq_nil_iff.1 hkinds
    exact ⟨none, rfl, rfl⟩
  | @label word kind name hword hname =>
    obtain ⟨token, rest, rfl, hkind, hkinds⟩ := List.map_eq_cons_iff.1 hkinds
    obtain ⟨labelToken, rfl, rfl⟩ := List.map_eq_singleton_iff.1 hkinds
    have has : token.kind.isAs = true := TokenKind.isAs_iff.2 ⟨word, hword, hkind⟩
    refine ⟨some (name, labelToken.span), ?_, rfl⟩
    rw [readAlias, if_pos has, TokenKind.name?_iff.2 hname]

theorem readEnd_iff (input : String) (tokens : List Token) :
    readEnd input tokens = .ok () ↔ tokens = [] := by
  cases tokens with
  | nil => exact iff_of_true rfl rfl
  | cons token rest => exact iff_of_false nofun nofun

theorem notAhead_of_map {kind : TokenKind} {tokens : List Token}
    (h : (tokens.map (·.kind)).head? ≠ some kind) : NotAhead kind tokens := by
  intro token htoken hkind
  rw [List.head?_map, Option.mem_def.1 htoken, Option.map_some, hkind] at h
  exact h rfl

end Fragment

/-- An alias starts with a word. -/
theorem WritesAlias.head?_ne {kinds : List TokenKind} {label : Option Name}
    (h : WritesAlias kinds label) (kind : TokenKind)
    (hkind : ∀ word quoted, kind ≠ .word word quoted) : kinds.head? ≠ some kind := by
  cases h with
  | absent => exact nofun
  | label => exact fun h => hkind _ _ (Option.some.inj h).symm

theorem WritesAlias.eq_nil {kinds : List TokenKind} (h : WritesAlias kinds none) : kinds = [] := by
  cases h
  rfl

theorem WritesSteps.head?_append_ne {kinds rest : List TokenKind} {steps : List JsonStep}
    (h : WritesSteps kinds steps) (hrest : rest.head? ≠ some .dot) :
    (kinds ++ rest).head? ≠ some .dot := by
  cases h with
  | nil => exact hrest
  | arrow => exact nofun

/-! ## Tables -/

theorem parseTable_iff (input : String) (table : TableName) :
    parseTable input = .ok table ↔ WritesTable (Token.kinds input) table := by
  constructor
  · revert table
    show Ensures (parseTable input) _
    refine (Fragment.readPath_sound input false _).bind fun (path, rest) ⟨front, hfront, hpath⟩ => ?_
    refine (Fragment.readAlias_sound input rest).bind fun (label, rest') ⟨tail, htail, hlabel, _⟩ => ?_
    refine .bind_any fun _ hend => .ok ?_
    obtain rfl := (Fragment.readEnd_iff input rest').1 hend
    dsimp only at hfront htail
    rw [Token.kinds, hfront, htail, List.append_nil, List.map_append]
    exact .mk hpath hlabel
  · intro h
    generalize hkinds : Token.kinds input = kinds at h
    obtain ⟨hpath, hlabel⟩ := h
    obtain ⟨front, tail, htokens, rfl, rfl⟩ := List.map_eq_append_iff.1 hkinds
    have hdot := Fragment.notAhead_of_map (hlabel.head?_ne .dot (by simp))
    obtain ⟨found, hfound, rfl⟩ := Fragment.readAlias_complete input hlabel
    unfold parseTable
    rw [htokens, Fragment.readPath_complete input hpath hdot rfl, ok_bind]
    dsimp only
    rw [hfound]
    rfl

/-! ## Columns -/

namespace Fragment

/-- The end of a column fragment: an alias, if the path is no wildcard, and then nothing. -/
def readTail (input : String) (path : Path) (json : List JsonStep) (tokens : List Token) :
    Except FragmentError ColumnRef := do
  let (label, rest) ← readAlias input tokens
  match label with
  | some (name, span) =>
    if path.endsInWildcard then .error ⟨.aliasedWildcard, span, input⟩
    else
      readEnd input rest
      return ⟨path, json, some name⟩
  | none =>
    readEnd input rest
    return ⟨path, json, none⟩

theorem parseColumn_eq (input : String) :
    parseColumn input = (do
      let (path, rest) ← readPath input true (Token.ofString input)
      if path.endsInWildcard then readTail input path [] rest
      else do
        let (json, rest) ← readSteps input rest
        readTail input path json rest) := rfl

theorem readTail_iff (input : String) (path : Path) (json : List JsonStep) (tokens : List Token)
    (column : ColumnRef) :
    readTail input path json tokens = .ok column ↔
      ∃ label, WritesAlias (tokens.map (·.kind)) label ∧
        (path.endsInWildcard = true → label = none) ∧ column = ⟨path, json, label⟩ := by
  constructor
  · revert column
    show Ensures (readTail input path json tokens) _
    refine (readAlias_sound input tokens).bind fun (label, rest) ⟨tail, htail, hlabel, _⟩ => ?_
    -- whatever is left over is refused
    have hall : rest = [] → WritesAlias (tokens.map (·.kind)) (label.map (·.1)) := by
      rintro rfl
      rw [htail, List.append_nil]
      exact hlabel
    cases label with
    | none =>
      refine .bind_any fun _ hend => .ok ⟨none, hall ((readEnd_iff input rest).1 hend), ?_, rfl⟩
      exact fun _ => rfl
    | some label =>
      refine .ite (fun _ => .error) fun hwild => .bind_any fun _ hend => .ok ⟨some label.1, ?_, ?_, rfl⟩
      · exact hall ((readEnd_iff input rest).1 hend)
      · exact fun h => (hwild h).elim
  · rintro ⟨label, hlabel, hwild, rfl⟩
    obtain ⟨found, hfound, rfl⟩ := readAlias_complete input hlabel
    unfold readTail
    rw [hfound, ok_bind]
    cases found with
    | none => rfl
    | some label =>
      have hpath : ¬path.endsInWildcard = true := fun h => nomatch hwild h
      dsimp only
      rw [if_neg hpath]
      rfl

end Fragment

theorem endsInWildcard_iff (path : Path) : path.endsInWildcard = true ↔ path.getLast? = some "*" :=
  decide_eq_true_iff

/-- A column fragment is read as a column exactly if its tokens write that column. -/
theorem parseColumn_iff (input : String) (column : ColumnRef) :
    parseColumn input = .ok column ↔ WritesColumn (Token.kinds input) column := by
  rw [Fragment.parseColumn_eq]
  constructor
  · revert column
    show Ensures _ _
    refine (Fragment.readPath_sound input true _).bind ?_
    rintro ⟨path, rest⟩ ⟨front, hfront, hpath⟩
    dsimp only at hfront
    refine .ite (fun hwild => ?_) fun hwild => ?_
    · intro column hcolumn
      obtain ⟨label, hlabel, hnone, rfl⟩ := (Fragment.readTail_iff ..).1 hcolumn
      obtain rfl := hnone hwild
      rw [Token.kinds, hfront, List.map_append, hlabel.eq_nil]
      have hwritten := WritesColumn.mk hpath .nil .absent fun _ => ⟨rfl, rfl⟩
      rwa [List.append_nil] at hwritten
    · refine (Fragment.readSteps_sound input rest).bind ?_
      rintro ⟨json, behind⟩ ⟨middle, hmiddle, hjson⟩ column hcolumn
      obtain ⟨label, hlabel, -, rfl⟩ := (Fragment.readTail_iff ..).1 hcolumn
      dsimp only at hmiddle
      rw [Token.kinds, hfront, hmiddle, List.map_append, List.map_append, ← List.append_assoc]
      refine .mk hpath hjson hlabel fun h => (hwild ((endsInWildcard_iff path).2 h)).elim
  · intro h
    generalize hkinds : Token.kinds input = kinds at h
    obtain ⟨hpath, hjson, hlabel, hwildcard⟩ := h
    obtain ⟨behind, tail, htokens, hbehind, rfl⟩ := List.map_eq_append_iff.1 hkinds
    obtain ⟨front, middle, rfl, rfl, rfl⟩ := List.map_eq_append_iff.1 hbehind
    have harrow := Fragment.notAhead_of_map (hlabel.head?_ne .arrow (by simp))
    have hdot : Fragment.NotAhead .dot (middle ++ tail) := by
      apply Fragment.notAhead_of_map
      rw [List.map_append]
      exact hjson.head?_append_ne (hlabel.head?_ne .dot (by simp))
    rw [htokens, List.append_assoc, Fragment.readPath_complete input hpath hdot rfl, ok_bind]
    dsimp only
    split
    · next hwild =>
      obtain ⟨hmiddle, htail⟩ := hwildcard ((endsInWildcard_iff _).1 hwild)
      obtain rfl := List.map_eq_nil_iff.1 hmiddle
      obtain rfl := List.map_eq_nil_iff.1 htail
      cases hjson
      cases hlabel
      exact (Fragment.readTail_iff ..).2 ⟨none, .absent, fun _ => rfl, rfl⟩
    · next hwild =>
      rw [Fragment.readSteps_complete input hjson harrow rfl, ok_bind]
      exact (Fragment.readTail_iff ..).2 ⟨_, hlabel, fun h => (hwild h).elim, rfl⟩

/-! ## Errors -/

/-- A computation whose error, if it has one, shows some characters of the fragment. -/
def Blames {α : Type} (x : Except FragmentError α) (input : String) : Prop :=
  ∀ error, x = .error error → error.input = input ∧ error.span.Within input

namespace Blames

variable {α β : Type} {x : Except FragmentError α} {input : String}

theorem ok (a : α) : Blames (.ok a) input := fun _ h => nomatch h

theorem error {error : FragmentError} (h : error.input = input ∧ error.span.Within input) :
    Blames (.error error : Except FragmentError α) input := by
  rintro _ ⟨⟩
  exact h

theorem bind {f : α → Except FragmentError β} (hx : Blames x input)
    (hf : ∀ a, x = .ok a → Blames (f a) input) : Blames (x >>= f) input := by
  cases x with
  | error e => exact error (hx e rfl)
  | ok a => exact hf a rfl

theorem map {f : α → β} (hx : Blames x input) : Blames (x.map f) input := by
  cases x with
  | error e => exact error (hx e rfl)
  | ok a => exact ok (f a)

end Blames

namespace Fragment

/-- Tokens that are stretches of the fragment. -/
def Placed (tokens : List Token) (input : String) : Prop := ∀ token ∈ tokens, token.span.Within input

variable {input : String} {tokens : List Token}

theorem unexpected_within (what : Expectation) (h : Placed tokens input) :
    (unexpected input what tokens).input = input ∧
      (unexpected input what tokens).span.Within input := by
  cases tokens with
  | nil =>
    have hend : String.Pos.Raw.IsValid input ⟨input.utf8ByteSize⟩ := String.Pos.Raw.isValid_rawEndPos
    exact ⟨rfl, Nat.le_refl _, hend, hend⟩
  | cons token rest =>
    obtain ⟨kind, span⟩ := token
    have hspan : span.Within input := h _ List.mem_cons_self
    cases kind with
    | invalid | word | dot | star | arrow => exact ⟨rfl, hspan⟩

theorem readPath_blames (stars : Bool) (tokens : List Token) (h : Placed tokens input) :
    Blames (readPath input stars tokens) input := by
  fun_induction readPath input stars tokens with
  | case1 => exact .error (unexpected_within _ h)
  | case2 => exact .ok _
  | case3 => exact .error (unexpected_within _ h)
  | case4 token hstar name hname span rest ih =>
    exact (ih fun token' htoken' => h token' (.tail _ (.tail _ htoken'))).map
  | case5 => exact .ok _

theorem readSteps_blames (tokens : List Token) (h : Placed tokens input) :
    Blames (readSteps input tokens) input := by
  fun_induction readSteps input tokens with
  | case1 span word quoted span' rest ih =>
    exact (ih fun token' htoken' => h token' (.tail _ (.tail _ htoken'))).map
  | case2 span rest hrest =>
    exact .error (unexpected_within _ fun token' htoken' => h token' (.tail _ htoken'))
  | case3 => exact .ok _

theorem readAlias_blames (h : Placed tokens input) : Blames (readAlias input tokens) input := by
  unfold readAlias
  split
  · exact .ok _
  · next token rest =>
    split
    · split
      · exact .error (unexpected_within _ fun token' htoken' => (List.not_mem_nil htoken').elim)
      · next labelToken rest =>
        split
        · exact .error (unexpected_within _ fun token' htoken' => h token' (.tail _ htoken'))
        · exact .ok _
    · exact .ok _

theorem readEnd_blames (h : Placed tokens input) : Blames (readEnd input tokens) input := by
  cases tokens with
  | nil => exact .ok _
  | cons token rest => exact .error (unexpected_within _ h)

theorem Placed.right {front rest : List Token} (h : Placed (front ++ rest) input) :
    Placed rest input := fun token htoken => h token (List.mem_append_right front htoken)

theorem readTail_blames (path : Path) (json : List JsonStep) (h : Placed tokens input) :
    Blames (readTail input path json tokens) input := by
  refine (readAlias_blames h).bind fun (label, rest) hread => ?_
  obtain ⟨front, hfront, -, hspan⟩ := readAlias_sound input tokens _ hread
  rw [hfront] at h
  have hrest : Blames (readEnd input rest) input := readEnd_blames h.right
  cases label with
  | none => exact hrest.bind fun _ _ => .ok _
  | some label =>
    obtain ⟨token, htoken, hplace⟩ := hspan label rfl
    dsimp only
    split
    · refine .error ⟨rfl, ?_⟩
      rw [← hplace]
      exact h token (List.mem_append_left _ htoken)
    · exact hrest.bind fun _ _ => .ok _

end Fragment

theorem parseTable_blames (input : String) : Blames (parseTable input) input := by
  have hall : Fragment.Placed (Token.ofString input) input := Token.ofString_within input
  refine (Fragment.readPath_blames false _ hall).bind fun (path, rest) hread => ?_
  obtain ⟨front, hfront, -⟩ := Fragment.readPath_sound input false _ _ hread
  rw [hfront] at hall
  refine (Fragment.readAlias_blames hall.right).bind fun (label, behind) hread' => ?_
  obtain ⟨middle, hmiddle, -⟩ := Fragment.readAlias_sound input _ _ hread'
  have hbehind := hall.right
  rw [hmiddle] at hbehind
  exact (Fragment.readEnd_blames hbehind.right).bind fun _ _ => .ok _

theorem parseColumn_blames (input : String) : Blames (parseColumn input) input := by
  have hall : Fragment.Placed (Token.ofString input) input := Token.ofString_within input
  rw [Fragment.parseColumn_eq]
  refine (Fragment.readPath_blames true _ hall).bind fun (path, rest) hread => ?_
  obtain ⟨front, hfront, -⟩ := Fragment.readPath_sound input true _ _ hread
  rw [hfront] at hall
  dsimp only
  split
  · exact Fragment.readTail_blames path [] hall.right
  · refine (Fragment.readSteps_blames rest hall.right).bind fun (json, behind) hread' => ?_
    obtain ⟨middle, hmiddle, -⟩ := Fragment.readSteps_sound input _ _ hread'
    have hbehind := hall.right
    rw [hmiddle] at hbehind
    exact Fragment.readTail_blames path json hbehind.right

/-! ## Main statement -/

/-- A fragment is read as a reference exactly if its tokens write that reference. If they write none, it
is refused, and the error shows some of its characters. -/
theorem fragments_follow_grammar (input : String) :
    (∀ column, parseColumn input = .ok column ↔ WritesColumn (Token.kinds input) column) ∧
    (∀ table, parseTable input = .ok table ↔ WritesTable (Token.kinds input) table) ∧
    ((¬∃ column, WritesColumn (Token.kinds input) column) →
      ∃ error, parseColumn input = .error error ∧ error.input = input ∧ error.span.Within input) ∧
    ((¬∃ table, WritesTable (Token.kinds input) table) →
      ∃ error, parseTable input = .error error ∧ error.input = input ∧ error.span.Within input) := by
  refine ⟨parseColumn_iff input, parseTable_iff input, fun hnone => ?_, fun hnone => ?_⟩
  · cases hparse : parseColumn input with
    | ok column => exact (hnone ⟨column, (parseColumn_iff input column).1 hparse⟩).elim
    | error e => exact ⟨e, rfl, parseColumn_blames input e hparse⟩
  · cases hparse : parseTable input with
    | ok table => exact (hnone ⟨table, (parseTable_iff input table).1 hparse⟩).elim
    | error e => exact ⟨e, rfl, parseTable_blames input e hparse⟩

/-- Capitals and small letters, quotes, accents, a position with leading zeros and a key `as`; and a
table name with a word too much. -/
theorem fragments_follow_grammar_accents :
    WritesColumn (Token.kinds "\"ä b\".größe->007->as aS x")
      ⟨["ä b", "größe"], [.index 7, .key "as"], some "x"⟩ ∧
    (¬∃ table, WritesTable (Token.kinds "größe x") table) ∧
    ∃ error, parseTable "größe x" = .error error ∧ error.input = "größe x" ∧
      error.span.Within "größe x" := by
  have hcolumn : parseColumn "\"ä b\".größe->007->as aS x" =
      .ok ⟨["ä b", "größe"], [.index 7, .key "as"], some "x"⟩ := by decide +kernel
  have htable : parseTable "größe x" = .error ⟨.expected .aliasOrEnd none, ⟨8, 9⟩, "größe x"⟩ := by
    decide +kernel
  have hnone : ¬∃ table, WritesTable (Token.kinds "größe x") table := by
    rintro ⟨table, hwrites⟩
    have hparse := ((fragments_follow_grammar "größe x").2.1 table).2 hwrites
    rw [htable] at hparse
    cases hparse
  exact ⟨((fragments_follow_grammar _).1 _).1 hcolumn, hnone,
    (fragments_follow_grammar "größe x").2.2.2 hnone⟩

end QueryCompiler
